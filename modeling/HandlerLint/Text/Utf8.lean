/-!
# Reading bytes as text

Bytes are read as UTF-8, one chunk after another: a chunk is a character, or a
longest stretch of bytes that begins a character without finishing it (a single
byte where not even the first byte fits).  Strict reading accepts characters only.
Lenient reading puts one replacement character in place of each broken stretch.
-/

namespace HandlerLint.Text

/-- The character that stands for a broken stretch of bytes. -/
def replacementChar : Char :=
  Char.ofNat 0xFFFD

/-- The bits a continuation byte adds below those already read. -/
def addBits (bits : Nat) (byte : UInt8) : Nat :=
  bits * 64 + (byte.toNat - 0x80)

/-- Read `count` more continuation bytes.  The next one has to lie between `low`
and `high`; those after it are unrestricted continuation bytes. -/
def readTail : Nat → UInt8 → UInt8 → Nat → List UInt8 → Option Char × List UInt8
  | 0, _, _, bits, rest => (some (Char.ofNat bits), rest)
  | _ + 1, _, _, _, [] => (none, [])
  | count + 1, low, high, bits, byte :: rest =>
      if low ≤ byte ∧ byte ≤ high then
        readTail count 0x80 0xBF (addBits bits byte) rest
      else
        (none, byte :: rest)

/-- Read the chunk that starts with `byte`: its character, or `none` for a broken
stretch, and the bytes after it. -/
def readChunk (byte : UInt8) (rest : List UInt8) : Option Char × List UInt8 :=
  let n := byte.toNat
  if n < 0x80 then (some (Char.ofNat n), rest)
  else if n < 0xC2 then (none, rest)
  else if n < 0xE0 then readTail 1 0x80 0xBF (n - 0xC0) rest
  else if n = 0xE0 then readTail 2 0xA0 0xBF 0 rest
  else if n = 0xED then readTail 2 0x80 0x9F (n - 0xE0) rest
  else if n < 0xF0 then readTail 2 0x80 0xBF (n - 0xE0) rest
  else if n = 0xF0 then readTail 3 0x90 0xBF 0 rest
  else if n < 0xF4 then readTail 3 0x80 0xBF (n - 0xF0) rest
  else if n = 0xF4 then readTail 3 0x80 0x8F 4 rest
  else (none, rest)

theorem length_readTail_le
    (count : Nat) (low high : UInt8) (bits : Nat) (bytes : List UInt8) :
    (readTail count low high bits bytes).2.length ≤ bytes.length := by
  induction bytes generalizing count low high bits with
  | nil => cases count <;> simp [readTail]
  | cons byte rest ih =>
      cases count with
      | zero => simp [readTail]
      | succ count =>
          rw [readTail]
          split
          · exact Nat.le_succ_of_le (ih ..)
          · simp

theorem length_readChunk_le
    (byte : UInt8) (rest : List UInt8) :
    (readChunk byte rest).2.length ≤ rest.length := by
  simp only [readChunk]
  repeat' split
  all_goals first
    | exact length_readTail_le ..
    | exact Nat.le_refl _

/-- The chunks of a byte string: characters, and `none` for broken stretches. -/
def chunks : List UInt8 → List (Option Char)
  | [] => []
  | byte :: rest => (readChunk byte rest).1 :: chunks (readChunk byte rest).2
termination_by bytes => bytes.length
decreasing_by
  exact Nat.lt_succ_of_le (length_readChunk_le byte rest)

/-- The text of a byte string, with a replacement character for each broken
stretch. -/
def decodeLossy (bytes : List UInt8) : List Char :=
  (chunks bytes).map (·.getD replacementChar)

/-- The text of a byte string that is valid throughout. -/
def decode? (bytes : List UInt8) : Option (List Char) :=
  (chunks bytes).mapM fun chunk => chunk

/-- The bytes of a text. -/
def encode (text : String) : List UInt8 :=
  text.toUTF8.toList

end HandlerLint.Text
