import FileReplicator.Attempts
import FileReplicator.CleanupCalls

/-!
# The attempts at one row

The row counts the failed attempts at its cleanup, and gates the next one; a thread
decides by its copy. What the row, the threads at it and the log of its attempts have
to do with each other, and what each call of a thread makes of that.
-/

namespace FileReplicator.CleanupRows

open Domain DurableStore SourceActions Retry Operations Worker Instance CleanupCalls Attempts

variable (setup : Setup)

abbrev Outcome := Except ReplError CleanupDone

/-- The attempts by the handles of their actions. -/
abbrev Tries := List (Try Nat Outcome)

def Transient (outcome : Outcome) : Prop := ∃ e, outcome = .error e ∧ e.isPermanent = false

def cap : Nat := setup.retry.maxAttempts.getD defaultCleanupMaxAttempts

def budget : Nat := max 1 (cap setup)

theorem budget_pos : 0 < budget setup := by
  unfold budget
  omega

theorem left_of_retry (small : ∀ limit ∈ setup.retry.maxAttempts, limit ≤ maxU32) (permanent : Bool)
    (attempts : Nat) (now gate : Int) (jitter : Nat)
    (retried : setup.retry.decideCleanup permanent attempts now jitter = .retry gate) :
    permanent = false ∧ attempts + 1 < budget setup := by
  have fits : cap setup ≤ maxU32 := by
    unfold cap
    cases configured : setup.retry.maxAttempts with
    | none => decide
    | some limit => exact small limit configured
  simp only [RetryPolicy.decideCleanup] at retried
  cases permanent with
  | true => cases retried
  | false =>
      by_cases spent : setup.retry.maxAttempts.getD defaultCleanupMaxAttempts ≤ nextAttempt attempts
      · simp [spent] at retried
      · have left : nextAttempt attempts < cap setup := Nat.lt_of_not_le spent
        refine ⟨rfl, ?_⟩
        unfold nextAttempt at left
        unfold budget
        omega

/-! ## What a thread knows of the row -/

section Knowing

variable (r : String) (row : Option Row) (tries : Tries)

def Young : Prop := tries = [] ∧ ∃ found, row = some found ∧ found.cleanupAttempts = 0

/-- The row may be cleaned up from this copy at this time. -/
def Due (copy : WorkItem) (clock : Int) : Prop :=
  (∃ found, row = some found ∧ found.cleanupAttempts = copy.cleanupAttempts) ∧
    Ready Transient (budget setup) tries copy.cleanupAttempts clock

def Pending (count : Nat) : Prop :=
  ∃ found, row = some found ∧ found.state = .cleanupPending ∧ found.cleanupAttempts = count

/-- How the row and its log stand when a thread is at this stage of its cleanup. -/
def Staged (clock : Int) : Stage → Prop
  | .free => True
  | .marked copy =>
      Pending row copy.cleanupAttempts ∧
        Ready Transient (budget setup) tries copy.cleanupAttempts clock
  | .acting copy handle =>
      Pending row copy.cleanupAttempts ∧ Going tries copy.cleanupAttempts handle none
  | .acted copy outcome =>
      Pending row copy.cleanupAttempts ∧
        ∃ handle, Going tries copy.cleanupAttempts handle (some outcome)

def isOf (copy : WorkItem) : Bool := copy.relpath = r

structure Tied (n : Notes) : Prop where
  promotes : ∀ rows, n.role = .promoting rows → r ∈ rows → Young row tries
  held : ∀ held, n.role = .claiming held → ∀ item ∈ held, item.relpath = r →
    Young row tries ∧ item.cleanupAttempts = 0
  young : n.role = .item → ∀ copy ∈ n.copies, copy.relpath = r → Young row tries
  listed : n.role = .listing → ∀ copy ∈ n.copies, copy.relpath = r →
    ∃ found, row = some found ∧ found.state = .cleanupPending
  due : ∀ copy ∈ n.copies, copy.relpath = r → Due setup row tries copy n.now
  staged : ∀ copy, n.stage.copy = some copy → copy.relpath = r → Staged setup row tries n.now n.stage
  single : (n.desk.filter (isOf r)).length ≤ 1

structure Silent (n : Notes) : Prop where
  promotes : ∀ rows, n.role = .promoting rows → r ∉ rows
  held : ∀ held, n.role = .claiming held → ∀ item ∈ held, item.relpath ≠ r
  desk : ∀ copy ∈ n.desk, copy.relpath ≠ r

def At (n : Notes) : Prop := ∃ copy, n.stage.copy = some copy ∧ copy.relpath = r

/-- How the row stands to its log; `busy` says that a thread is in its cleanup. -/
structure Settled (busy : Prop) : Prop where
  absent : row = none → tries = []
  young : ∀ found, row = some found → isYoung found.state = true →
    tries = [] ∧ found.cleanupAttempts = 0
  pending : ∀ found, row = some found → found.state = .cleanupPending →
    (tries = [] ∧ found.cleanupAttempts = 0) ∨ busy
  failed : ∀ found, row = some found → found.state = .cleanupFailed →
    ∃ e, Closed tries found.cleanupAttempts (.error e) found.nextAttemptAt ∧
      (found.nextAttemptAt = cleanupNoRetry ∨
        (e.isPermanent = false ∧ found.cleanupAttempts < budget setup))
  completed : ∀ found, row = some found → found.state = .completed →
    ∀ newest ∈ tries.head?, ∃ done, newest.outcome = some (.ok done)

/-- The thread goes on, and what it takes the row to be still is what it is. -/
structure Unmoved (n after : Notes) : Prop where
  tied : Tied setup r row tries after
  stays : At r n → At r after

/-- The thread has moved the row or its log on, and nobody else is in its cleanup. -/
structure Moved (after : Notes) : Prop where
  budgeted : Budgeted Transient (budget setup) tries
  tied : Tied setup r row tries after
  settled : Settled setup row tries (At r after)

end Knowing

section Rows

variable {setup} {r : String} {row : Option Row} {tries : Tries} {n : Notes}

theorem tied_of_silent (silent : Silent r n) : Tied setup r row tries n := by
  have copies : ∀ copy ∈ n.copies, copy.relpath ≠ r := fun copy member =>
    silent.desk copy (List.mem_append_right _ member)
  constructor
  case promotes => exact fun rows role member => absurd member (silent.promotes rows role)
  case held => exact fun held role item member own => absurd own (silent.held held role item member)
  case young => exact fun _ copy member own => absurd own (copies copy member)
  case listed => exact fun _ copy member own => absurd own (copies copy member)
  case due => exact fun copy member own => absurd own (copies copy member)
  case staged =>
    intro copy staged own
    exact absurd own (silent.desk copy (List.mem_append_left _ (by rw [staged]; exact List.mem_singleton_self _)))
  case single =>
    have nobody : n.desk.filter (isOf r) = [] := by
      apply List.filter_eq_nil_iff.mpr
      intro copy member own
      exact silent.desk copy member (of_decide_eq_true own)
    rw [nobody]
    exact Nat.zero_le _

theorem due_of_young (young : Young row tries) (copy : WorkItem) (zero : copy.cleanupAttempts = 0)
    (clock : Int) : Due setup row tries copy clock := by
  obtain ⟨rfl, found, rfl, count⟩ := young
  refine ⟨⟨found, rfl, count.trans zero.symm⟩, ?_⟩
  rw [zero]
  exact ready_empty Transient (budget setup) clock (budget_pos setup)

theorem none_left (copy : WorkItem) (rest : List WorkItem) (own : copy.relpath = r)
    (single : ((copy :: rest).filter (isOf r)).length ≤ 1) : ∀ other ∈ rest, other.relpath ≠ r := by
  rw [List.filter_cons_of_pos (by exact decide_eq_true own), List.length_cons] at single
  have nobody : rest.filter (isOf r) = [] := List.length_eq_zero_iff.mp (by omega)
  intro other member same
  exact List.filter_eq_nil_iff.mp nobody other member (decide_eq_true same)

theorem single_of_nodup (rows : List WorkItem) (different : (rows.map WorkItem.relpath).Nodup) :
    (rows.filter (isOf r)).length ≤ 1 := by
  have counts : (rows.filter (isOf r)).length = (rows.map WorkItem.relpath).count r := by
    rw [List.count, List.countP_map, List.countP_eq_length_filter]
    congr 1
  rw [counts]
  exact List.nodup_iff_count_le_one.mp different r

theorem keeps_role (tied : Tied setup r row tries n) (role : Role)
    (silent : Silent r { n with role := role, copies := [], stage := .free })
    (other : role ≠ .item ∧ role ≠ .listing) : Unmoved setup r row tries n { n with role := role } := by
  constructor
  case stays => exact id
  case tied =>
    constructor
    case promotes => exact fun rows at_ member => absurd member (silent.promotes rows at_)
    case held => exact fun held at_ item member own => absurd own (silent.held held at_ item member)
    case young => exact fun at_ => absurd at_ other.1
    case listed => exact fun at_ => absurd at_ other.2
    case due => exact tied.due
    case staged => exact tied.staged
    case single => exact tied.single

theorem keeps_restaged (tied : Tied setup r row tries n) (copy : WorkItem)
    (was : n.stage.copy = some copy) (other : copy.relpath ≠ r) (stage : Stage)
    (is : stage.copy = some copy ∨ stage.copy = none) :
    Unmoved setup r row tries n { n with stage := stage } := by
  constructor
  case stays =>
    rintro ⟨found, same, own⟩
    rw [was] at same
    cases same
    exact absurd own other
  case tied =>
    constructor
    case promotes => exact tied.promotes
    case held => exact tied.held
    case young => exact tied.young
    case listed => exact tied.listed
    case due => exact tied.due
    case staged =>
      intro found same own
      rcases is with is | is
      · rw [show stage.copy = some found from same] at is
        cases is
        exact absurd own other
      · rw [show stage.copy = some found from same] at is
        cases is
    case single =>
      have single := tied.single
      have whole : n.desk = copy :: n.copies := by rw [Notes.desk, was]; rfl
      rw [whole, List.filter_cons_of_neg (by simpa [isOf] using other)] at single
      rcases is with is | is
      · have whole : Notes.desk { n with stage := stage } = copy :: n.copies := by
          show stage.copy.toList ++ n.copies = _
          rw [is]
          rfl
        rw [whole, List.filter_cons_of_neg (by simpa [isOf] using other)]
        exact single
      · have whole : Notes.desk { n with stage := stage } = n.copies := by
          show stage.copy.toList ++ n.copies = _
          rw [is]
          rfl
        rw [whole]
        exact single

theorem keeps_marked (tied : Tied setup r row tries n) (copy : WorkItem) (rest : List WorkItem)
    (first : n.copies = copy :: rest) (free : n.stage = .free) (other : copy.relpath ≠ r) :
    Unmoved setup r row tries n { n with copies := rest, stage := .marked copy } := by
  have member : ∀ one ∈ rest, one ∈ n.copies := by
    intro one member
    rw [first]
    exact List.mem_cons_of_mem _ member
  constructor
  case stays =>
    rintro ⟨found, same, _⟩
    rw [free] at same
    cases same
  case tied =>
    constructor
    case promotes => exact tied.promotes
    case held => exact tied.held
    case young => exact fun role one later => tied.young role one (member one later)
    case listed => exact fun role one later => tied.listed role one (member one later)
    case due => exact fun one later => tied.due one (member one later)
    case staged =>
      intro found same own
      cases same
      exact absurd own other
    case single =>
      have single := tied.single
      rw [Notes.desk, free, first] at single
      exact single

structure Found (r : String) (row : Option Row) (state : ItemState) (rows : List WorkItem) : Prop where
  different : (rows.map WorkItem.relpath).Nodup
  found : ∀ item ∈ rows, item.relpath = r → ∃ found, row = some found ∧ found.state = state ∧
    item.cleanupAttempts = found.cleanupAttempts ∧ item.nextAttemptAt = found.nextAttemptAt

theorem not_at_of_free (free : n.stage = .free) : ¬At r n := by
  rintro ⟨copy, same, _⟩
  rw [free] at same
  cases same

theorem listed_failed (busy : Prop) (settled : Settled setup row tries busy) (idle : n.Idle)
    (rows : List WorkItem) (found : Found r row .failed rows) :
    Unmoved setup r row tries n { n with role := .promoting (rows.map WorkItem.relpath) } := by
  constructor
  case stays => exact id
  case tied =>
    constructor
    case promotes =>
      intro names same member
      cases same
      obtain ⟨item, listed, own⟩ := List.mem_map.mp member
      obtain ⟨known, is, state, _⟩ := found.found item listed own
      obtain ⟨empty, count⟩ := settled.young known is (by rw [state]; rfl)
      exact ⟨empty, known, is, count⟩
    case held => exact fun _ same => by cases same
    case young => exact fun same => by cases same
    case listed => exact fun same => by cases same
    case due =>
      intro copy member
      rw [show ({ n with role := Role.promoting (rows.map WorkItem.relpath) } : Notes).copies = []
        from idle.copies] at member
      cases member
    case staged =>
      intro copy same
      rw [show ({ n with role := Role.promoting (rows.map WorkItem.relpath) } : Notes).stage = .free
        from idle.stage] at same
      cases same
    case single =>
      show (List.filter (isOf r) (n.stage.copy.toList ++ n.copies)).length ≤ 1
      rw [idle.stage, idle.copies]
      exact Nat.zero_le _

/-- A row whose cleanup is under way, while nobody is in it, has just been marked. -/
theorem listed_pending (busy : Prop) (settled : Settled setup row tries busy) (nobody : ¬busy)
    (free : n.stage = .free) (rows : List WorkItem) (found : Found r row .cleanupPending rows) :
    Unmoved setup r row tries n { n with role := .listing, copies := rows } := by
  have young : ∀ copy ∈ rows, copy.relpath = r → Young row tries ∧ copy.cleanupAttempts = 0 := by
    intro copy member own
    obtain ⟨known, is, state, count, _⟩ := found.found copy member own
    rcases settled.pending known is state with ⟨empty, zero⟩ | busy
    · exact ⟨⟨empty, known, is, zero⟩, count.trans zero⟩
    · exact absurd busy nobody
  constructor
  case stays => exact fun at_ => absurd at_ (not_at_of_free free)
  case tied =>
    constructor
    case promotes => exact fun _ same => by cases same
    case held => exact fun _ same => by cases same
    case young => exact fun same => by cases same
    case listed =>
      intro _ copy member own
      obtain ⟨known, is, state, _⟩ := found.found copy member own
      exact ⟨known, is, state⟩
    case due =>
      intro copy member own
      obtain ⟨is, zero⟩ := young copy member own
      exact due_of_young is copy zero n.now
    case staged =>
      intro copy same
      rw [show ({ n with role := Role.listing, copies := rows } : Notes).stage = .free from free] at same
      cases same
    case single =>
      show (List.filter (isOf r) (n.stage.copy.toList ++ rows)).length ≤ 1
      rw [free]
      exact single_of_nodup rows found.different

theorem listed_due (busy : Prop) (settled : Settled setup row tries busy)
    (tied : Tied setup r row tries n) (role : n.role = .listing) (free : n.stage = .free)
    (early : n.now < cleanupNoRetry) (rows : List WorkItem)
    (found : Found r row .cleanupFailed rows) :
    Unmoved setup r row tries n { n with
      role := .cleaning
      copies := n.copies ++ rows.filter fun item => item.nextAttemptAt ≤ n.now } := by
  have later : ∀ copy ∈ rows.filter (fun item => item.nextAttemptAt ≤ n.now), copy.relpath = r →
      Due setup row tries copy n.now ∧ ∃ known, row = some known ∧ known.state = .cleanupFailed := by
    intro copy member own
    obtain ⟨listed, passed⟩ := List.mem_filter.mp member
    obtain ⟨known, is, state, count, gate⟩ := found.found copy listed own
    obtain ⟨e, closed, gated⟩ := settled.failed known is state
    have due : known.nextAttemptAt ≤ n.now := gate ▸ of_decide_eq_true passed
    rcases gated with never | ⟨again, left⟩
    -- the gate that stands for never is not passed
    · rw [never] at due
      omega
    · refine ⟨⟨⟨known, is, count.symm⟩, ?_⟩, known, is, state⟩
      rw [count]
      exact ready_closed Transient (budget setup) tries _ (.error e) _ n.now closed ⟨e, rfl, again⟩
        left due
  constructor
  case stays => exact fun at_ => absurd at_ (not_at_of_free free)
  case tied =>
    constructor
    case promotes => exact fun _ same => by cases same
    case held => exact fun _ same => by cases same
    case young => exact fun same => by cases same
    case listed => exact fun same => by cases same
    case due =>
      intro copy member own
      rcases List.mem_append.mp member with old | new
      · exact tied.due copy old own
      · exact (later copy new own).1
    case staged =>
      intro copy same
      have none : n.stage.copy = some copy := same
      rw [free] at none
      cases none
    case single =>
      show (List.filter (isOf r) (n.stage.copy.toList ++ (n.copies ++ _))).length ≤ 1
      rw [free]
      show (List.filter (isOf r) (n.copies ++ _)).length ≤ 1
      rw [List.filter_append, List.length_append]
      by_cases old : ∃ copy ∈ n.copies, copy.relpath = r
      · -- a row that is under way is not listed as failed
        obtain ⟨copy, member, own⟩ := old
        obtain ⟨known, is, pending⟩ := tied.listed role copy member own
        have none : (rows.filter fun item => item.nextAttemptAt ≤ n.now).filter (isOf r) = [] := by
          apply List.filter_eq_nil_iff.mpr
          intro other listed also
          obtain ⟨_, again, same, state⟩ := later other listed (of_decide_eq_true also)
          rw [is] at same
          cases same
          rw [pending] at state
          cases state
        have single := tied.single
        rw [Notes.desk, free] at single
        rw [none]
        exact single
      · have none : n.copies.filter (isOf r) = [] := by
          apply List.filter_eq_nil_iff.mpr
          intro copy member own
          exact old ⟨copy, member, of_decide_eq_true own⟩
        have few := single_of_nodup (r := r) rows found.different
        have fewer := ((List.filter_sublist (l := rows)
          (p := fun item => decide (item.nextAttemptAt ≤ n.now))).filter (isOf r)).length_le
        rw [none]
        show 0 + _ ≤ 1
        omega

/-! ## Calls that move the row or its log -/

theorem young_map (young : Young row tries) (change : Row → Row)
    (count : ∀ found, (change found).cleanupAttempts = found.cleanupAttempts) :
    Young (row.map change) tries := by
  obtain ⟨empty, found, rfl, zero⟩ := young
  exact ⟨empty, change found, rfl, (count found).trans zero⟩

theorem due_map (copy : WorkItem) (clock : Int) (due : Due setup row tries copy clock)
    (change : Row → Row) (count : ∀ found, (change found).cleanupAttempts = found.cleanupAttempts) :
    Due setup (row.map change) tries copy clock := by
  obtain ⟨⟨found, rfl, same⟩, ready⟩ := due
  exact ⟨⟨change found, rfl, (count found).trans same⟩, ready⟩

def Logged (setup : Setup) (found : Row) (tries : Tries) (busy : Prop) : ItemState → Prop
  | .cleanupPending => (tries = [] ∧ found.cleanupAttempts = 0) ∨ busy
  | .cleanupFailed =>
      ∃ e, Closed tries found.cleanupAttempts (.error e) found.nextAttemptAt ∧
        (found.nextAttemptAt = cleanupNoRetry ∨
          (e.isPermanent = false ∧ found.cleanupAttempts < budget setup))
  | .completed => ∀ newest ∈ tries.head?, ∃ done, newest.outcome = some (.ok done)
  | _ => tries = [] ∧ found.cleanupAttempts = 0

theorem settled_none (busy : Prop) : Settled setup none ([] : Tries) busy := by
  constructor
  case absent => exact fun _ => rfl
  all_goals
    intro found absent
    cases absent

theorem settled_iff (found : Row) (busy : Prop) :
    Settled setup (some found) tries busy ↔ Logged setup found tries busy found.state := by
  constructor
  · intro settled
    cases state : found.state with
    | cleanupPending => exact settled.pending found rfl state
    | cleanupFailed => exact settled.failed found rfl state
    | completed => exact settled.completed found rfl state
    | _ => exact settled.young found rfl (by rw [state]; rfl)
  · intro logged
    constructor
    case absent => exact fun absent => by cases absent
    case young =>
      intro known same young
      cases same
      cases state : found.state <;> rw [state] at logged young <;> first | exact logged | cases young
    case pending =>
      intro known same pending
      cases same
      rw [pending] at logged
      exact logged
    case failed =>
      intro known same failed
      cases same
      rw [failed] at logged
      exact logged
    case completed =>
      intro known same completed
      cases same
      rw [completed] at logged
      exact logged

theorem settled_young (young : Young row tries) (busy : Prop)
    (state : ∀ found, row = some found → isYoung found.state = true) :
    Settled setup row tries busy := by
  obtain ⟨empty, found, rfl, zero⟩ := young
  apply (settled_iff found busy).mpr
  have young := state found rfl
  cases state : found.state <;> rw [state] at young <;> first | exact ⟨empty, zero⟩ | cases young

theorem moved_restated (budgeted : Budgeted Transient (budget setup) tries)
    (tied : Tied setup r row tries n) (young : Young row tries) (free : n.stage = .free)
    (role : n.role ≠ .listing) (change : Row → Row)
    (count : ∀ found, (change found).cleanupAttempts = found.cleanupAttempts)
    (state : ∀ found, isYoung (change found).state = true) :
    Moved setup r (row.map change) tries n := by
  have still := young_map young change count
  constructor
  case budgeted => exact budgeted
  case settled =>
    apply settled_young still
    intro found same
    obtain ⟨old, _, rfl⟩ := Option.map_eq_some_iff.mp same
    exact state old
  case tied =>
    constructor
    case promotes => exact fun _ _ _ => still
    case held => exact fun held same item member own => ⟨still, (tied.held held same item member own).2⟩
    case young => exact fun _ _ _ _ => still
    case listed => exact fun same => absurd same role
    case due => exact fun copy member own => due_map copy n.now (tied.due copy member own) change count
    case staged =>
      intro copy same
      rw [free] at same
      cases same
    case single => exact tied.single

/-- The copies that are left of others when a thread is in the cleanup of a row. -/
theorem others_left (tied : Tied setup r row tries n) (copy : WorkItem)
    (staged : n.stage.copy = some copy) (own : copy.relpath = r) :
    ∀ other ∈ n.copies, other.relpath ≠ r := by
  have single := tied.single
  rw [Notes.desk, staged] at single
  exact none_left copy n.copies own single

theorem tied_staged (stage : Stage) (copies : List WorkItem) (others : ∀ other ∈ copies, other.relpath ≠ r)
    (cleans : n.role.cleans = true) (staged : Staged setup row tries n.now stage) :
    Tied setup r row tries { n with copies := copies, stage := stage } := by
  constructor
  case promotes =>
    intro rows role
    rw [show n.role = .promoting rows from role] at cleans
    cases cleans
  case held =>
    intro held role
    rw [show n.role = .claiming held from role] at cleans
    cases cleans
  case young => exact fun _ copy member own => absurd own (others copy member)
  case listed => exact fun _ copy member own => absurd own (others copy member)
  case due => exact fun copy member own => absurd own (others copy member)
  case staged => exact fun _ _ _ => staged
  case single =>
    have nobody : copies.filter (isOf r) = [] := by
      apply List.filter_eq_nil_iff.mpr
      intro copy member own
      exact others copy member (of_decide_eq_true own)
    show (List.filter (isOf r) (stage.copy.toList ++ copies)).length ≤ 1
    rw [List.filter_append, nobody, List.append_nil]
    refine Nat.le_trans (List.length_filter_le _ _) ?_
    cases stage.copy with
    | none => exact Nat.zero_le _
    | some copy => exact Nat.le_refl _

/-! ### The cleanup of the row -/

theorem settled_pending (count : Nat) (pending : Pending row count) (busy : Prop) (is : busy) :
    Settled setup row tries busy := by
  obtain ⟨known, rfl, state, _⟩ := pending
  apply (settled_iff known busy).mpr
  rw [state]
  exact Or.inr is

theorem moved_marked (budgeted : Budgeted Transient (budget setup) tries)
    (tied : Tied setup r row tries n) (cleans : n.role.cleans = true) (free : n.stage = .free)
    (copy : WorkItem) (rest : List WorkItem) (first : n.copies = copy :: rest)
    (own : copy.relpath = r) (at_ : Int) :
    Moved setup r (row.map fun found => { found with state := .cleanupPending, updatedAt := at_ })
      tries { n with copies := rest, stage := .marked copy } := by
  obtain ⟨⟨found, rfl, count⟩, ready⟩ := tied.due copy (first ▸ List.mem_cons_self) own
  have pending : Pending (some { found with state := .cleanupPending, updatedAt := at_ })
      copy.cleanupAttempts := ⟨_, rfl, rfl, count⟩
  have others : ∀ other ∈ rest, other.relpath ≠ r := by
    have single := tied.single
    rw [Notes.desk, free, first] at single
    exact none_left copy rest own single
  constructor
  case budgeted => exact budgeted
  case tied => exact tied_staged (.marked copy) rest others cleans ⟨pending, ready⟩
  case settled => exact settled_pending copy.cleanupAttempts pending _ ⟨copy, rfl, own⟩

theorem staged_of (tied : Tied setup r row tries n) (stage : Stage) (is : n.stage = stage)
    (copy : WorkItem) (about : stage.copy = some copy) (own : copy.relpath = r) :
    Staged setup row tries n.now stage := by
  have staged := tied.staged copy (by rw [is]; exact about) own
  rwa [is] at staged

theorem moved_started (budgeted : Budgeted Transient (budget setup) tries)
    (tied : Tied setup r row tries n) (cleans : n.role.cleans = true) (copy : WorkItem)
    (marked : n.stage = .marked copy) (own : copy.relpath = r) (handle : Nat) :
    Moved setup r row (enter handle n.now tries) { n with stage := .acting copy handle } := by
  obtain ⟨pending, ready⟩ := staged_of tied _ marked copy rfl own
  have others := others_left tied copy (by rw [marked]; rfl) own
  constructor
  case budgeted => exact budgeted_enter Transient (budget setup) tries _ n.now handle budgeted ready
  case tied =>
    exact tied_staged (.acting copy handle) n.copies others cleans
      ⟨pending, going_enter Transient (budget setup) tries _ n.now handle ready⟩
  case settled => exact settled_pending copy.cleanupAttempts pending _ ⟨copy, rfl, own⟩

theorem moved_heard (budgeted : Budgeted Transient (budget setup) tries)
    (tied : Tied setup r row tries n) (cleans : n.role.cleans = true) (copy : WorkItem) (handle : Nat)
    (acting : n.stage = .acting copy handle) (own : copy.relpath = r) (outcome : Outcome) :
    Moved setup r row (hear handle outcome tries) { n with stage := .acted copy outcome } := by
  obtain ⟨pending, going⟩ := staged_of tied _ acting copy rfl own
  have others := others_left tied copy (by rw [acting]; rfl) own
  constructor
  case budgeted => exact budgeted_hear Transient (budget setup) tries handle outcome budgeted
  case tied =>
    exact tied_staged (.acted copy outcome) n.copies others cleans
      ⟨pending, handle, going_hear tries _ handle outcome none going⟩
  case settled => exact settled_pending copy.cleanupAttempts pending _ ⟨copy, rfl, own⟩

theorem moved_completed (budgeted : Budgeted Transient (budget setup) tries)
    (tied : Tied setup r row tries n) (cleans : n.role.cleans = true) (copy : WorkItem)
    (done : CleanupDone) (acted : n.stage = .acted copy (.ok done)) (own : copy.relpath = r)
    (at_ : Int) :
    Moved setup r (row.map fun found => { found with state := .completed, updatedAt := at_ }) tries
      { n with stage := .free } := by
  obtain ⟨⟨found, rfl, _⟩, handle, going⟩ := staged_of tied _ acted copy rfl own
  have others := others_left tied copy (by rw [acted]; rfl) own
  constructor
  case budgeted => exact budgeted
  case tied => exact tied_staged .free n.copies others cleans trivial
  case settled =>
    apply (settled_iff _ _).mpr
    intro newest is
    obtain ⟨clock, first⟩ := going.newest
    rw [first] at is
    cases is
    exact ⟨done, rfl⟩

theorem moved_recorded (small : ∀ limit ∈ setup.retry.maxAttempts, limit ≤ maxU32)
    (budgeted : Budgeted Transient (budget setup) tries) (tied : Tied setup r row tries n)
    (cleans : n.role.cleans = true) (gate : Int) (records : Records setup n r gate) (error : String)
    (at_ : Int) :
    Moved setup r (row.map fun found =>
        { found with
          cleanupAttempts := found.cleanupAttempts + 1
          lastError := some error
          state := .cleanupFailed
          nextAttemptAt := gate
          updatedAt := at_ })
      (close gate tries) { n with stage := .free } := by
  obtain ⟨copy, e, jitter, acted, own, gated⟩ := records
  obtain ⟨⟨found, rfl, _, count⟩, handle, going⟩ := staged_of tied _ acted copy rfl own
  have others := others_left tied copy (by rw [acted]; rfl) own
  constructor
  case budgeted => exact budgeted_close Transient (budget setup) tries gate budgeted
  case tied => exact tied_staged .free n.copies others cleans trivial
  case settled =>
    have closed := closed_close tries copy.cleanupAttempts handle (.error e) gate going
    rw [← count] at closed
    apply (settled_iff _ _).mpr
    refine ⟨e, closed, ?_⟩
    -- the gate is never where the policy gives up, and there is an attempt left where it retries
    cases decision : setup.retry.decideCleanup e.isPermanent copy.cleanupAttempts n.now jitter with
    | giveUp =>
        rw [decision] at gated
        exact Or.inl gated
    | retry next =>
        obtain ⟨again, left⟩ := left_of_retry setup small _ _ _ _ _ decision
        rw [← count] at left
        exact Or.inr ⟨again, left⟩

theorem moved_fresh (silent : Silent r n) (size : Nat) (mtimeMs now : Int) :
    Moved setup r (some (Store.freshRow size mtimeMs now)) [] n := by
  constructor
  case budgeted => exact ⟨trivial, Nat.zero_le _⟩
  case tied => exact tied_of_silent silent
  case settled =>
    apply settled_young ⟨rfl, _, rfl, rfl⟩
    intro found same
    cases same
    rfl

theorem moved_touched (budgeted : Budgeted Transient (budget setup) tries) (silent : Silent r n)
    (found : Row) (settled : Settled setup (some found) tries (At r n)) (size : Nat)
    (mtimeMs now : Int) :
    Moved setup r (some { found with size := size, mtimeMs := mtimeMs, updatedAt := now }) tries n := by
  constructor
  case budgeted => exact budgeted
  case tied => exact tied_of_silent silent
  case settled => exact (settled_iff _ _).mpr ((settled_iff found _).mp settled)

def Taken (row after : Option Row) (at_ : Int) : Prop :=
  ∃ found, row = some found ∧ found.state = .ready ∧
    after = some { found with state := .inProgress, updatedAt := at_ }

theorem moved_claimed (budgeted : Budgeted Transient (budget setup) tries)
    (settled : Settled setup row tries (At r n)) (idle : n.Idle) (rows : List WorkItem)
    (after : Option Row) (at_ : Int) (rest : after = row ∨ Taken row after at_)
    (held : ∀ item ∈ rows, item.relpath = r → Taken row after at_ ∧
      ∀ found, row = some found → item.cleanupAttempts = found.cleanupAttempts) :
    Moved setup r after tries { n with role := .claiming rows } := by
  have young : Taken row after at_ → Young after tries ∧
      ∀ found, row = some found → found.cleanupAttempts = 0 := by
    rintro ⟨known, is, ready, rfl⟩
    obtain ⟨empty, zero⟩ := settled.young known is (by rw [ready]; rfl)
    refine ⟨⟨empty, _, rfl, zero⟩, fun found same => ?_⟩
    rw [is] at same
    cases same
    exact zero
  constructor
  case budgeted => exact budgeted
  case settled =>
    rcases rest with rfl | taken
    · exact settled
    · apply settled_young (young taken).1
      obtain ⟨_, _, _, rfl⟩ := taken
      intro found same
      cases same
      rfl
  case tied =>
    constructor
    case promotes => exact fun _ same => by cases same
    case held =>
      intro names same item member own
      cases same
      obtain ⟨taken, count⟩ := held item member own
      obtain ⟨is, zero⟩ := young taken
      obtain ⟨known, same, _⟩ := taken
      exact ⟨is, (count known same).trans (zero known same)⟩
    case young => exact fun same => by cases same
    case listed => exact fun same => by cases same
    case due =>
      intro copy member
      have none : copy ∈ n.copies := member
      rw [idle.copies] at none
      cases none
    case staged =>
      intro copy same
      have none : n.stage.copy = some copy := same
      rw [idle.stage] at none
      cases none
    case single =>
      show (List.filter (isOf r) (n.stage.copy.toList ++ n.copies)).length ≤ 1
      rw [idle.stage, idle.copies]
      exact Nat.zero_le _

end Rows

end FileReplicator.CleanupRows
