/-!
# Reading bytes as UTF-8

Files hold bytes; the assembler works on characters. `decodeUtf8` reads the well-formed
sequences of RFC 3629 and turns every byte that does not start one into U+FFFD, one
replacement per byte, so that a text of `n` bytes never yields more than `n` characters.
-/

namespace PagedAsm

def replacementChar : Char := '�'

def leadShape (b0 : UInt8) : Option (Nat × Nat × UInt8 × UInt8) :=
  let bits := b0.toNat
  if 0xC2 ≤ b0 && b0 ≤ 0xDF then some (1, bits % 32, 0x80, 0xBF)
  else if b0 == 0xE0 then some (2, bits % 16, 0xA0, 0xBF)
  else if b0 == 0xED then some (2, bits % 16, 0x80, 0x9F)
  else if 0xE1 ≤ b0 && b0 ≤ 0xEF then some (2, bits % 16, 0x80, 0xBF)
  else if b0 == 0xF0 then some (3, bits % 8, 0x90, 0xBF)
  else if b0 == 0xF4 then some (3, bits % 8, 0x80, 0x8F)
  else if 0xF1 ≤ b0 && b0 ≤ 0xF3 then some (3, bits % 8, 0x80, 0xBF)
  else none

def codePointOf (lead : Nat) (rest : List UInt8) : Nat :=
  rest.foldl (fun acc b => acc * 64 + (b.toNat % 64)) lead

def sequence? (b0 : UInt8) (bs : List UInt8) : Option (Char × Nat) :=
  match leadShape b0 with
  | none => none
  | some (count, lead, lo, hi) =>
    let conts := bs.take count
    match conts with
    | [] => none
    | b1 :: more =>
      if conts.length == count && lo ≤ b1 && b1 ≤ hi && more.all (fun b => 0x80 ≤ b && b ≤ 0xBF)
      then some (Char.ofNat (codePointOf lead conts), count)
      else none

/-- The characters of a byte sequence read as UTF-8, with U+FFFD for each stray byte. -/
def decodeUtf8 : List UInt8 → List Char
  | [] => []
  | b0 :: bs =>
    if b0 < 0x80 then Char.ofNat b0.toNat :: decodeUtf8 bs
    else match sequence? b0 bs with
      | some (c, n) => c :: decodeUtf8 (bs.drop n)
      | none => replacementChar :: decodeUtf8 bs
termination_by bs => bs.length
decreasing_by all_goals (simp only [List.length_drop, List.length_cons]; omega)

def textOfBytes (bytes : ByteArray) : String :=
  String.ofList (decodeUtf8 bytes.toList)

end PagedAsm
