import FileReplicator.Domain

/-!
# Object keys

The deterministic key of a relpath below a configured prefix. The s3, azure and
gcs backends each carry their own copy of this function.
-/

namespace FileReplicator.ObjectPath

/-- The path segments a key keeps: not empty, not `.` and not `..`. -/
def keptSegments (relpath : String) : List (List Char) :=
  (relpath.toList.splitOn '/').filter
    fun segment => segment ≠ [] ∧ segment ≠ ['.'] ∧ segment ≠ ['.', '.']

def joinSegments (segments : List (List Char)) : List Char :=
  ['/'].intercalate segments

def trimMatches (c : Char) (chars : List Char) : List Char :=
  ((chars.dropWhile (· == c)).reverse.dropWhile (· == c)).reverse

def objectKey (keyPrefix relpath : String) : String :=
  let joined := joinSegments (keptSegments relpath)
  let p := trimMatches '/' keyPrefix.toList
  String.ofList <|
    if p = [] then joined
    else if joined = [] then p
    else p ++ '/' :: joined

end FileReplicator.ObjectPath
