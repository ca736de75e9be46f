import FileReplicator.ByteRanges
import FileReplicator.Domain

/-!
# The local source

One version of a source file as a delivery reads it. A delivery reads the file
several times; here it does not change in between.
-/

namespace FileReplicator.SourceFile

open Domain ByteRanges

/-- A version of a source file. File sizes stay below `2 ^ 63`. -/
structure Source where
  bytes : Bytes
  mtimeMs : Int
  fits : bytes.length < 2 ^ 63
  deriving DecidableEq

def Source.size (src : Source) : Nat := src.bytes.length

theorem double_size_lt_word (src : Source) : 2 * src.size < word := by
  have fits := src.fits
  unfold Source.size word
  omega

theorem size_lt_word (src : Source) : src.size < word := by
  have := double_size_lt_word src
  omega

theorem three_bytes_fit : ([1, 2, 3] : Bytes).length < 2 ^ 63 := by decide

/-- Rewrites give the file a fresh `(size, mtime)`: versions that agree on both are one. -/
def Versioned (versions : Source → Prop) : Prop :=
  ∀ a b, versions a → versions b → a.size = b.size → a.mtimeMs = b.mtimeMs → a = b

def truncatedText (got offset len : Nat) (path : String) : String :=
  "source truncated: read " ++ toString got ++ " of " ++ toString len ++ " bytes at offset " ++
    toString offset ++ " from " ++ path

/-- `read_source_range`: all of the range, or a transient error where the file ends before it. -/
def readSourceRange (src : Source) (path : String) (offset len : Nat) : Except ReplError Bytes :=
  let got := slice src.bytes offset len
  if got.length = len then .ok got
  else .error (.transient (truncatedText got.length offset len path))

theorem read_inside (src : Source) (path : String) (offset len : Nat)
    (inside : offset + len ≤ src.size) :
    readSourceRange src path offset len = .ok (slice src.bytes offset len) := by
  simp [readSourceRange, slice_length_of_le _ _ _ inside]

theorem read_past_end (src : Source) (path : String) (offset len : Nat)
    (started : offset ≤ src.size) (past : src.size < offset + len) :
    ∃ text, readSourceRange src path offset len = .error (.transient text) := by
  have hshort : (slice src.bytes offset len).length ≠ len := by
    rw [slice_length]
    unfold Source.size at started past
    omega
  exact ⟨truncatedText (slice src.bytes offset len).length offset len path,
    by simp [readSourceRange, hshort]⟩

end FileReplicator.SourceFile
