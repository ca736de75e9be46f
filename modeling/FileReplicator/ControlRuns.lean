import FileReplicator.Commands
import FileReplicator.Interleaving
import FileReplicator.SqliteStore

/-!
# The control plane over its runs

Processes start and crash, commands are delivered and served side by side, the
store refuses what it likes and the instances go on writing to it. The activation
of an instance, in the store and in the process, is what the last command that
asked for it has made it.
-/

namespace FileReplicator.ControlRuns

open Domain DurableStore Effects Json Startup SqliteStore Commands Interleaving
open Operations (StoreOp)

/-! ## The machine -/

structure World where
  db : Database
  /-- The control plane of the process, while there is one. -/
  plane : Option Plane
  /-- The flags of the running instances. -/
  active : String → Bool

inductive Answer where
  | asIs
  | refused (error : ReplError)
  | clock (now : Int)
  deriving DecidableEq

def Answer.now : Answer → Int
  | .clock now => now
  | _ => 0

/-- A statement is done, or refused without effect. -/
def Answer.write (answer : Answer) (world done : World) : Except ReplError Unit × World :=
  match answer with
  | .refused e => (.error e, world)
  | _ => (.ok (), done)

def Answer.read {α : Type} (answer : Answer) (value : Except ReplError α) : Except ReplError α :=
  match answer with
  | .refused e => .error e
  | _ => value

def call (world : World) (answer : Answer) : (operation : Op) → Ret operation × World
  | .now => (answer.now, world)
  | .isActive id => (world.active id, world)
  | .setFlag id active =>
      ((), { world with active := fun i => if i = id then active else world.active i })
  | .setActivation id active source now =>
      answer.write world { world with db := world.db.setActivation id active source now }
  | .clearActivation id => answer.write world { world with db := world.db.clearActivation id }
  | .stats id => (answer.read (world.db.readStats id), world)
  | .listByState id state => (answer.read (world.db.listByState id state), world)
  | .spawnTrigger _ _ _ => ((), world)
  | .notify _ _ => ((), world)
  | .emit _ => ((), world)
  | .reply _ => ((), world)

inductive Event where
  /-- A process starts; `found` is what its instances meet. -/
  | boot (site : Site) (cfgs : List InstanceCfg) (global : GlobalCfg) (found : String → Findings)
  | deliver (verb : Verb) (body : Value) (addressed : Option String)
  /-- An instance makes a statement. -/
  | statement (inst : String) (operation : StoreOp)
  | crash

def persisted (db : Database) (id : String) : Option Bool :=
  (db.loadActivation id).map Activation.active

section

variable (componentName thingName : String) (rfc3339Ms : Int → String)

def booted (world : World) (roster : Roster) : World where
  db := world.db
  plane := some ⟨componentName, thingName, roster.instances, roster.disabled⟩
  active := fun id => (roster.instances.find? fun inst => inst.id = id).any Instance.active

def react (live : List Request) (world : World) : Event → Option (Reaction World Request)
  | .boot site cfgs global found =>
      if world.plane.isNone ∧ live.isEmpty then
        match Startup.run site (persisted world.db) global found cfgs with
        | .ok roster => some ⟨booted componentName thingName world roster, false, []⟩
        | .error _ => some ⟨world, false, []⟩
      else none
  | .deliver verb body addressed =>
      world.plane.map fun plane => ⟨world, false, [⟨plane, verb, address body addressed⟩]⟩
  | .statement inst operation =>
      some ⟨{ world with db := (callDatabase world.db inst operation).2 }, false, []⟩
  | .crash => some ⟨{ world with plane := none }, true, []⟩

/-- A thread notes its request with its changes. -/
def noted : Discipline Op Ret (Request × List Deed) where
  allowed := fun n operation => (recorder n.1).allowed n.2 operation
  possible := fun _ _ => True
  learn := fun n operation ret => (n.1, (recorder n.1).learn n.2 operation ret)

def control : Machine Op Ret World Request (Request × List Deed) Answer Event where
  discipline := noted
  finished := fun _ => True
  main := serveCommand rfc3339Ms
  start := fun r => (r, [])
  owner := fun _ => none
  perform := fun _ _ world operation answer =>
    let out := call world answer operation
    some (out.1, ⟨out.2, [], fun _ _ => .stays⟩)
  react := react componentName thingName

end

abbrev Office := Config Op Ret World Request (Request × List Deed)
abbrev Clerk := Thread Op Ret Request (Request × List Deed)

/-! ## The ledger -/

structure Ledger where
  /-- The command that has written the record of an instance last. -/
  records : String → Option (Request × Option Bool)
  /-- The command that has set the flag of an instance last, in this process. -/
  flags : String → Option (Request × Bool)
  /-- What each command has changed. -/
  made : Nat → List Deed
  /-- The replies, with what their commands had changed. -/
  replies : List (Request × Except CommandError Value × List Deed)

def blank : Ledger := ⟨fun _ => none, fun _ => none, fun _ => [], []⟩

def Ledger.enter (h : Ledger) (t : Nat) (r : Request) (deed : Deed) : Ledger where
  records :=
    match deed with
    | .record id value => fun i => if i = id then some (r, value) else h.records i
    | _ => h.records
  flags :=
    match deed with
    | .flag id active => fun i => if i = id then some (r, active) else h.flags i
    | _ => h.flags
  made := fun i => if i = t then h.made i ++ [deed] else h.made i
  replies := h.replies

def heed (t : Clerk) (operation : Op) (answer : Answer) (c _ : Office) (h : Ledger) : Ledger :=
  match operation with
  | .reply result => { h with replies := h.replies ++ [(t.spec, result, h.made t.id)] }
  | operation =>
      match deedOf operation (call c.state answer operation).1 with
      | some deed => h.enter t.id t.spec deed
      | none => h

def pass (event : Event) (_ _ : Office) (h : Ledger) : Ledger :=
  match event with
  | .boot _ _ _ _ => { h with flags := fun _ => none }
  | _ => h

abbrev ledger : Chronicle Op Ret World Request (Request × List Deed) Answer Event Ledger :=
  chronicle blank heed pass

/-- No process runs yet; `before` is what the store holds of the activations. -/
def Starts (before : String → Option Bool) (c : Office) : Prop :=
  c.threads = [] ∧ c.state.plane = none ∧ persisted c.state.db = before

/-! ## Single calls -/

theorem set_activation_persisted (db : Database) (id : String) (active : Bool) (source : String)
    (now : Int) (i : String) :
    persisted (db.setActivation id active source now) i =
      if i = id then some active else persisted db i := by
  unfold persisted Database.loadActivation Database.setActivation
  by_cases same : i = id
  · subst same
    cases active <;> simp
  · simp [same]

theorem clear_activation_persisted (db : Database) (id : String) (i : String) :
    persisted (db.clearActivation id) i = if i = id then none else persisted db i := by
  unfold persisted Database.loadActivation Database.clearActivation
  by_cases same : i = id
  · subst same
    simp
  · simp [same]

theorem mark_claimed_activation (inst : String) (now : Int) (items : List WorkItem) (db : Database) :
    (Database.markClaimed inst now items db).activation = db.activation := by
  induction items generalizing db with
  | nil => rfl
  | cons item rest ih =>
      rw [Database.markClaimed, ih]
      rfl

theorem statement_persisted (db : Database) (inst : String) (operation : StoreOp) :
    persisted (callDatabase db inst operation).2 = persisted db := by
  have same : (callDatabase db inst operation).2.activation = db.activation := by
    cases operation with
    | claimReady limit now =>
        rw [callDatabase, Database.claimReady]
        cases collectItems inst (Database.limited limit (db.selectItems inst fun row =>
          row.state = "ready" && row.nextAttemptAt ≤ now)) with
        | error e => rfl
        | ok items => exact mark_claimed_activation inst now items db
    | _ => rfl
  funext id
  unfold persisted Database.loadActivation
  rw [same]

def recordsAfter (records : String → Option Bool) : Option Deed → String → Option Bool
  | some (.record id value) => fun i => if i = id then value else records i
  | _ => records

def flagsAfter (flags : String → Bool) : Option Deed → String → Bool
  | some (.flag id active) => fun i => if i = id then active else flags i
  | _ => flags

theorem call_spec (world : World) (answer : Answer) (operation : Op) :
    (call world answer operation).2.plane = world.plane ∧
      persisted (call world answer operation).2.db =
        recordsAfter (persisted world.db) (deedOf operation (call world answer operation).1) ∧
      (call world answer operation).2.active =
        flagsAfter world.active (deedOf operation (call world answer operation).1) := by
  cases operation with
  | setActivation i active source now =>
      have written := funext (set_activation_persisted world.db i active source now)
      cases answer with
      | refused e => exact ⟨rfl, rfl, rfl⟩
      | asIs => exact ⟨rfl, written, rfl⟩
      | clock n => exact ⟨rfl, written, rfl⟩
  | clearActivation i =>
      have cleared := funext (clear_activation_persisted world.db i)
      cases answer with
      | refused e => exact ⟨rfl, rfl, rfl⟩
      | asIs => exact ⟨rfl, cleared, rfl⟩
      | clock n => exact ⟨rfl, cleared, rfl⟩
  | _ => exact ⟨rfl, rfl, rfl⟩

/-! ## The invariant -/

section

variable (componentName thingName : String) (rfc3339Ms : Int → String)

theorem keeps_noted {α : Type} (r : Request) (prog : Program α) (deeds : List Deed)
    (post : α → List Deed → Prop) (keeps : Keeps (recorder r) prog deeds post) :
    Keeps noted prog (r, deeds) fun value n => post value n.2 := by
  induction prog generalizing deeds with
  | done value => exact keeps
  | call operation next ih => exact ⟨keeps.1, fun ret possible => ih ret _ (keeps.2 ret possible)⟩

/-- The activations are what the ledger says, and the ledger holds what was asked for. -/
structure Sound (before : String → Option Bool) (h : Ledger) (c : Office) : Prop where
  distinct : Distinct c
  orderly : Orderly (control componentName thingName rfc3339Ms) c
  noted : ∀ t ∈ c.threads, t.notes = (t.spec, h.made t.id)
  unborn : ∀ id, c.next ≤ id → h.made id = []
  records : ∀ id, persisted c.state.db id = (h.records id).elim (before id) Prod.snd
  flags : ∀ plane, c.state.plane = some plane → ∀ inst ∈ plane.instances,
    c.state.active inst.id = (h.flags inst.id).elim inst.active Prod.snd
  askedRecords : ∀ id r value, h.records id = some (r, value) → Asks r (.record id value)
  askedFlags : ∀ id r active, h.flags id = some (r, active) → Asks r (.flag id active)
  honest : ∀ reply ∈ h.replies, Honest reply.1 reply.2.1 reply.2.2

theorem enter_spec (h : Ledger) (t : Nat) (r : Request) (deed : Deed) (asks : Asks r deed)
    (before records : String → Option Bool) (plane : List Instance) (flags : String → Bool)
    (hrecords : ∀ id, records id = (h.records id).elim (before id) Prod.snd)
    (hflags : ∀ inst ∈ plane, flags inst.id = (h.flags inst.id).elim inst.active Prod.snd)
    (askedRecords : ∀ id r value, h.records id = some (r, value) → Asks r (.record id value))
    (askedFlags : ∀ id r active, h.flags id = some (r, active) → Asks r (.flag id active)) :
    (∀ id, recordsAfter records (some deed) id =
      ((h.enter t r deed).records id).elim (before id) Prod.snd) ∧
    (∀ inst ∈ plane, flagsAfter flags (some deed) inst.id =
      ((h.enter t r deed).flags inst.id).elim inst.active Prod.snd) ∧
    (∀ id r' value, (h.enter t r deed).records id = some (r', value) → Asks r' (.record id value)) ∧
    ∀ id r' active, (h.enter t r deed).flags id = some (r', active) → Asks r' (.flag id active) := by
  cases deed with
  | record i value =>
      refine ⟨fun id => ?_, hflags, fun id r' v is => ?_, askedFlags⟩
      · simp only [recordsAfter, Ledger.enter]
        by_cases same : id = i
        · rw [if_pos same, if_pos same]
          rfl
        · rw [if_neg same, if_neg same, hrecords]
      · simp only [Ledger.enter] at is
        by_cases same : id = i
        · rw [if_pos same] at is
          cases is
          exact same ▸ asks
        · rw [if_neg same] at is
          exact askedRecords id r' v is
  | flag i active =>
      refine ⟨hrecords, fun inst member => ?_, askedRecords, fun id r' v is => ?_⟩
      · simp only [flagsAfter, Ledger.enter]
        by_cases same : inst.id = i
        · rw [if_pos same, if_pos same]
          rfl
        · rw [if_neg same, if_neg same, hflags inst member]
      · simp only [Ledger.enter] at is
        by_cases same : id = i
        · rw [if_pos same] at is
          cases is
          exact same ▸ asks
        · rw [if_neg same] at is
          exact askedFlags id r' v is
  | scan i ignoreWindow => exact ⟨hrecords, hflags, askedRecords, askedFlags⟩
  | said scope event => exact ⟨hrecords, hflags, askedRecords, askedFlags⟩

theorem heed_spec (t : Clerk) (operation : Op) (answer : Answer) (c after : Office) (h : Ledger) :
    (∀ deed, deedOf operation (call c.state answer operation).1 = some deed →
      heed t operation answer c after h = h.enter t.id t.spec deed) ∧
    (deedOf operation (call c.state answer operation).1 = none →
      (heed t operation answer c after h).records = h.records ∧
      (heed t operation answer c after h).flags = h.flags ∧
      (heed t operation answer c after h).made = h.made ∧
      ∀ reply ∈ (heed t operation answer c after h).replies, reply ∈ h.replies ∨
        operation = .reply reply.2.1 ∧ reply.1 = t.spec ∧ reply.2.2 = h.made t.id) := by
  have plain : ∀ op : Op, (∀ result, op ≠ .reply result) →
      heed t op answer c after h =
        (deedOf op (call c.state answer op).1).elim h fun deed => h.enter t.id t.spec deed := by
    intro op silent
    cases op with
    | reply result => exact absurd rfl (silent result)
    | _ =>
        simp only [heed]
        split <;> simp_all
  by_cases replies : ∃ result, operation = .reply result
  · obtain ⟨result, rfl⟩ := replies
    refine ⟨nofun, fun _ => ⟨rfl, rfl, rfl, fun reply member => ?_⟩⟩
    rcases List.mem_append.mp member with old | new
    · exact Or.inl old
    · obtain rfl := List.mem_singleton.mp new
      exact Or.inr ⟨rfl, rfl, rfl⟩
  · have entered := plain operation fun result is => replies ⟨result, is⟩
    refine ⟨fun deed is => ?_, fun is => ?_⟩
    · rw [entered, is]
      rfl
    · rw [entered, is]
      exact ⟨rfl, rfl, rfl, fun reply member => Or.inl member⟩

variable (before : String → Option Bool)

theorem starts_orderly (r : Request) :
    Keeps noted (serveCommand rfc3339Ms r) (r, []) fun _ _ => True :=
  keeps_mono noted _ _ _ _ (keeps_noted r _ [] _ (command_honest rfc3339Ms r)) fun _ _ _ => trivial

theorem made_after (t : Clerk) (operation : Op) (answer : Answer) (c after : Office) (h : Ledger)
    (i : Nat) :
    (heed t operation answer c after h).made i =
      if i = t.id then h.made i ++ (deedOf operation (call c.state answer operation).1).toList
      else h.made i := by
  obtain ⟨entered, passed⟩ := heed_spec t operation answer c after h
  cases deed : deedOf operation (call c.state answer operation).1 with
  | none =>
      rw [(passed deed).2.2.1, Option.toList_none, List.append_nil, ite_self]
  | some d =>
      rw [entered d deed]
      rfl

theorem sound_settle (h : Ledger) (c after : Office)
    (sound : Sound componentName thingName rfc3339Ms before h c) (t : Clerk) (operation : Op)
    (ret : Ret operation) (effect : Effect World Request) (next : Ret operation → Program Unit)
    (choice : Choice Answer Event)
    (calls : Calls (control componentName thingName rfc3339Ms) c t operation ret effect next choice)
    (same : after = (control componentName thingName rfc3339Ms).settle c
      ((control componentName thingName rfc3339Ms).resumed t operation ret next) effect) :
    Sound componentName thingName rfc3339Ms before (ledger.follow c choice after h) after := by
  obtain ⟨answer, rfl, performed⟩ := calls.choice
  have out := Option.some.inj performed
  obtain rfl : (call c.state answer operation).1 = ret := congrArg Prod.fst out
  obtain rfl : Effect.mk (call c.state answer operation).2 [] (fun _ _ => Fate.stays) = effect :=
    congrArg Prod.snd out
  have follow : ledger.follow c (.run t.id answer) after h = heed t operation answer c after h :=
    follow_call blank heed pass c after sound.distinct t calls.member operation next calls.prog answer h
  rw [follow]
  obtain ⟨asks, replies⟩ := calls_allowed _ c t operation _ _ next _ calls sound.orderly
  rw [sound.noted t calls.member] at asks replies
  obtain ⟨plane, db, active⟩ := call_spec c.state answer operation
  have below := sound.distinct.below t calls.member
  have made := made_after t operation answer c after h
  obtain ⟨entered, passed⟩ := heed_spec t operation answer c after h
  have state : after.state = (call c.state answer operation).2 := by rw [same]; rfl
  -- the ledger and the world, by whether the call is a change
  have books : (∀ id, persisted after.state.db id =
        ((heed t operation answer c after h).records id).elim (before id) Prod.snd) ∧
      (∀ plane, after.state.plane = some plane → ∀ inst ∈ plane.instances,
        after.state.active inst.id =
          ((heed t operation answer c after h).flags inst.id).elim inst.active Prod.snd) ∧
      (∀ id r value, (heed t operation answer c after h).records id = some (r, value) →
        Asks r (.record id value)) ∧
      (∀ id r active, (heed t operation answer c after h).flags id = some (r, active) →
        Asks r (.flag id active)) ∧
      ∀ reply ∈ (heed t operation answer c after h).replies, Honest reply.1 reply.2.1 reply.2.2 := by
    rw [state, db, plane, active]
    cases deed : deedOf operation (call c.state answer operation).1 with
    | none =>
        obtain ⟨records, flags, _, told⟩ := passed deed
        rw [records, flags]
        refine ⟨sound.records, sound.flags, sound.askedRecords, sound.askedFlags, ?_⟩
        intro reply member
        rcases told reply member with old | ⟨is, spec, deeds⟩
        · exact sound.honest reply old
        · rw [spec, deeds]
          exact replies reply.2.1 is
    | some d =>
        rw [entered d deed]
        have asked := asks _ d deed
        obtain ⟨records, _, askedRecords, askedFlags⟩ := enter_spec h t.id t.spec d asked before
          (persisted c.state.db) [] c.state.active sound.records nofun sound.askedRecords
          sound.askedFlags
        refine ⟨records, fun p is => ?_, askedRecords, askedFlags, sound.honest⟩
        exact (enter_spec h t.id t.spec d asked before (persisted c.state.db) p.instances
          c.state.active sound.records (sound.flags p is) sound.askedRecords sound.askedFlags).2.1
  obtain ⟨records, flags, askedRecords, askedFlags, honest⟩ := books
  refine ⟨?_, ?_, ?_, ?_, records, flags, askedRecords, askedFlags, honest⟩
  · exact same ▸ distinct_settle _ c _ _ sound.distinct
  · exact same ▸ orderly_settle _ c t operation _ _ next _ calls sound.orderly trivial nofun
  · intro u member
    rw [same] at member
    rcases mem_settle _ c _ u _ member with ⟨is, _⟩ | ⟨old, among, other, is, _⟩ | ⟨new, none, _⟩
    · rw [is.notes, is.spec, is.id, made]
      show (t.notes.1, t.notes.2 ++ _) = (t.spec, if t.id = t.id then _ else _)
      rw [if_pos rfl, sound.noted t calls.member]
      rfl
    · have apart : old.id ≠ t.id := other
      rw [is.notes, is.spec, is.id, made, if_neg apart]
      exact sound.noted old among
    · cases none
  · intro id unborn
    have later : c.next ≤ id := by rw [same] at unborn; exact unborn
    rw [made, if_neg (by omega)]
    exact sound.unborn id later

theorem sound_without (h : Ledger) (c : Office)
    (sound : Sound componentName thingName rfc3339Ms before h c) (id : Nat) :
    Sound componentName thingName rfc3339Ms before h
      ((control componentName thingName rfc3339Ms).without c id) where
  distinct := distinct_without _ c id sound.distinct
  orderly := orderly_without _ c id sound.orderly
  noted := by
    intro u member
    obtain ⟨old, among, _, is⟩ := mem_without _ c id u member
    rw [is.notes, is.spec, is.id]
    exact sound.noted old among
  unborn := sound.unborn
  records := sound.records
  flags := sound.flags
  askedRecords := sound.askedRecords
  askedFlags := sound.askedFlags
  honest := sound.honest

/-- The flags of a process that has just started are those its instances were built with. -/
theorem booted_flags (world : World) (roster : Roster)
    (once : (roster.instances.map Instance.id).Nodup) (inst : Instance)
    (member : inst ∈ roster.instances) :
    (booted componentName thingName world roster).active inst.id = inst.active := by
  have found : roster.instances.find? (fun other => other.id = inst.id) = some inst := by
    cases first : roster.instances.find? fun other => other.id = inst.id with
    | none =>
        have never := List.find?_eq_none.mp first inst member
        simp at never
    | some other =>
        have same : other.id = inst.id := by simpa using List.find?_some first
        rw [List.inj_on_of_nodup_map once (List.mem_of_find?_eq_some first) member same]
  show (roster.instances.find? fun other => other.id = inst.id).any Instance.active = inst.active
  rw [found]
  rfl

theorem sound_absorb (h : Ledger) (c : Office)
    (sound : Sound componentName thingName rfc3339Ms before h c) (event : Event)
    (reaction : Reaction World Request)
    (reacted : react componentName thingName (Machine.live c) c.state event = some reaction) :
    Sound componentName thingName rfc3339Ms before
      (pass event c ((control componentName thingName rfc3339Ms).absorb c reaction) h)
      ((control componentName thingName rfc3339Ms).absorb c reaction) := by
  have made : (pass event c ((control componentName thingName rfc3339Ms).absorb c reaction) h).made =
      h.made := by cases event <;> rfl
  have threads : ∀ u ∈ ((control componentName thingName rfc3339Ms).absorb c reaction).threads,
      u.notes = (u.spec, h.made u.id) := by
    intro u member
    rcases mem_absorb _ c reaction u member with ⟨_, old, among, is⟩ | ⟨new, spawned, is⟩
    · rw [is.notes, is.spec, is.id]
      exact sound.noted old among
    · obtain ⟨_, later, _, _, notes, _⟩ := mem_spawn_from _ _ _ new spawned
      rw [is.notes, is.spec, is.id, notes, sound.unborn new.id later]
      rfl
  have unborn : ∀ id, ((control componentName thingName rfc3339Ms).absorb c reaction).next ≤ id →
      h.made id = [] := fun id later => sound.unborn id ((Nat.le_add_right _ _).trans later)
  have distinct := distinct_absorb (control componentName thingName rfc3339Ms) c reaction sound.distinct
  have orderly := orderly_absorb (control componentName thingName rfc3339Ms) c reaction sound.orderly
    fun r _ => starts_orderly rfc3339Ms r
  cases event with
  | boot site cfgs global found =>
      dsimp only [react] at reacted
      by_cases idle : c.state.plane.isNone ∧ (Machine.live c).isEmpty
      · rw [if_pos idle] at reacted
        cases ran : Startup.run site (persisted c.state.db) global found cfgs with
        | error text =>
            simp only [ran] at reacted
            cases reacted
            refine ⟨distinct, orderly, threads, unborn, sound.records, fun plane is => ?_,
              sound.askedRecords, nofun, sound.honest⟩
            have none := Option.isNone_iff_eq_none.mp idle.1
            exact absurd (none.symm.trans is) nofun
        | ok roster =>
            simp only [ran] at reacted
            cases reacted
            obtain ⟨_, _, rfl, _⟩ := (run_eq _ _ _ _ _ _).mp ran
            have once := (settled_gathered (persisted c.state.db) global found cfgs).once
            refine ⟨distinct, orderly, threads, unborn, sound.records, fun plane is inst member => ?_,
              sound.askedRecords, nofun, sound.honest⟩
            cases is
            exact booted_flags componentName thingName c.state _ (List.nodup_append'.mp once).1 inst
              member
      · rw [if_neg idle] at reacted
        cases reacted
  | deliver verb body addressed =>
      obtain ⟨plane, _, rfl⟩ := Option.map_eq_some_iff.mp reacted
      exact ⟨distinct, orderly, threads, unborn, sound.records, sound.flags, sound.askedRecords,
        sound.askedFlags, sound.honest⟩
  | statement inst operation =>
      cases reacted
      refine ⟨distinct, orderly, threads, unborn, fun id => ?_, sound.flags, sound.askedRecords,
        sound.askedFlags, sound.honest⟩
      show persisted (callDatabase c.state.db inst operation).2 id = _
      rw [statement_persisted]
      exact sound.records id
  | crash =>
      cases reacted
      exact ⟨distinct, orderly, threads, unborn, sound.records, nofun, sound.askedRecords,
        sound.askedFlags, sound.honest⟩

theorem sound_step (h : Ledger) (c after : Office) (choice : Choice Answer Event)
    (sound : Sound componentName thingName rfc3339Ms before h c)
    (stepped : (control componentName thingName rfc3339Ms).step c choice = some after) :
    Sound componentName thingName rfc3339Ms before (ledger.follow c choice after h) after := by
  rcases step_cases (control componentName thingName rfc3339Ms) c after choice stepped with
    ⟨t, operation, ret, effect, next, calls, same⟩ | ⟨id, rfl, _, rfl⟩ |
    ⟨event, reaction, rfl, reacted, rfl⟩
  · exact sound_settle componentName thingName rfc3339Ms before h c after sound t operation ret effect
      next choice calls same
  · exact sound_without componentName thingName rfc3339Ms before h c sound id
  · exact sound_absorb componentName thingName rfc3339Ms before h c sound event reaction reacted

/-- In every run the activation of every instance, in the store and in the process, is what the last
command that changed it made it, and what the process was started with before any did; that command
asked for it by name; and every reply tells all that its command has changed. -/
theorem commands_accounted (h : Ledger) (c : Office)
    (tracked : Tracked (control componentName thingName rfc3339Ms) ledger (Starts before)
      (fun _ _ _ => True) h c) :
    (∀ id, persisted c.state.db id = (h.records id).elim (before id) Prod.snd) ∧
      (∀ plane, c.state.plane = some plane → ∀ inst ∈ plane.instances,
        c.state.active inst.id = (h.flags inst.id).elim inst.active Prod.snd) ∧
      (∀ id r value, h.records id = some (r, value) → Asks r (.record id value)) ∧
      (∀ id r active, h.flags id = some (r, active) → Asks r (.flag id active)) ∧
      ∀ reply ∈ h.replies, Honest reply.1 reply.2.1 reply.2.2 := by
  have sound : Sound componentName thingName rfc3339Ms before h c := by
    apply invariant_of_tracked (control componentName thingName rfc3339Ms) ledger (Starts before)
      (fun _ _ _ => True) (Sound componentName thingName rfc3339Ms before) ?_
      (fun h c after choice sound _ stepped =>
        sound_step componentName thingName rfc3339Ms before h c after choice sound stepped) h c tracked
    rintro c ⟨nobody, nothing, rfl⟩
    have absent : ∀ t, t ∉ c.threads := fun t member => by rw [nobody] at member; cases member
    refine ⟨⟨fun t member => absurd member (absent t), ?_⟩, fun t member => absurd member (absent t),
      fun t member => absurd member (absent t), fun _ _ => rfl, fun _ => rfl, fun plane is => ?_, nofun,
      nofun, nofun⟩
    · rw [nobody]
      exact List.nodup_nil
    · rw [nothing] at is
      cases is
  exact ⟨sound.records, sound.flags, sound.askedRecords, sound.askedFlags, sound.honest⟩

end

def plant : InstanceCfg where
  id := "plant"
  enabled := true
  ingressPath := "/in"
  egress := [.local "/out"]
  schedule := .immediate
  archiveDir := none
  failedDir := none
  onPermissionError := none

def nothingWrong : Findings where
  readDir := .ok ()
  egress := fun _ => ⟨.ok (), .ok ()⟩
  archive := ⟨.ok (), .ok ()⟩
  failed := ⟨.ok (), .ok ()⟩
  parts := .ok ()
  refused := none

def atHome : Site := ⟨"state.db", .ok (), id⟩

/-- The instance is deactivated over its own topic; then all instances are triggered. -/
def closing : List (Choice Answer Event) :=
  [.env (.boot atHome [plant] ⟨.disableInstance, none⟩ fun _ => nothingWrong),
    .env (.deliver .setActivation (.obj [("active", .bool false)]) (some "plant")),
    .run 0 (.clock 5), .run 0 .asIs, .run 0 .asIs, .run 0 .asIs, .run 0 .asIs,
    .env (.deliver .trigger (.obj []) none), .run 1 (.clock 6), .run 1 .asIs, .run 1 .asIs, .run 1 .asIs]

def officeStart : Office := ⟨⟨emptyDatabase, none, fun _ => false⟩, [], 0⟩

theorem commands_accounted_closing :
    ∃ h c, Tracked (control "replicator" "gateway" fun _ => "") ledger (Starts fun _ => none)
        (fun _ _ _ => True) h c ∧ persisted c.state.db "plant" = some false ∧ h.replies.length = 2 ∧
      ∀ id, persisted c.state.db id = (h.records id).elim none Prod.snd := by
  obtain ⟨h, c, tracked, closed⟩ := exists_of_tracked_run (control "replicator" "gateway" fun _ => "")
    ledger (Starts fun _ => none) (fun _ _ _ => True) (fun _ _ _ => true) (fun _ _ _ _ => trivial)
    (fun h c => persisted c.state.db "plant" = some false && h.replies.length = 2) closing officeStart
    ⟨rfl, rfl, rfl⟩ (by decide)
  rw [Bool.and_eq_true, decide_eq_true_iff, decide_eq_true_iff] at closed
  exact ⟨h, c, tracked, closed.1, closed.2,
    (commands_accounted "replicator" "gateway" (fun _ => "") (fun _ => none) h c tracked).1⟩

end FileReplicator.ControlRuns
