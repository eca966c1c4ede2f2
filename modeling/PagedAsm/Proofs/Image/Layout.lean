import PagedAsm.Image.File
import Mathlib.Algebra.Group.Nat.Defs

/-!
# The byte layout of executable images

The pieces an image is written from and read back into: little-endian numbers, code words as
byte pairs, include names each followed by a line end, and the fields of an instruction word.
Each piece comes with the law that reading undoes writing (`ofLittleEndian_littleEndian`,
`wordsOf_words`, `splitOn_names`) and the law that writing undoes reading on well-formed
bytes (`littleEndian_ofLittleEndian`, `words_wordsOf`, `names_splitOn`). A name that holds a
line end is the one place where reading does not give back what was written: it comes back
as the pieces between its line ends.
-/

namespace PagedAsm

theorem byteArray_toList_loop (bs : ByteArray) (i : Nat) (r : List UInt8) :
    ByteArray.toList.loop bs i r = r.reverse ++ bs.data.toList.drop i := by
  fun_induction ByteArray.toList.loop bs i r with
  | case1 i r h ih =>
    have hi : i < bs.data.toList.length := by simpa using h
    rw [ih, List.drop_eq_getElem_cons hi]
    simp [ByteArray.get!, h]
  | case2 i r h =>
    rw [List.drop_eq_nil_of_le (by simpa using Nat.le_of_not_lt h)]
    simp

theorem byteArray_toList (bs : ByteArray) : bs.toList = bs.data.toList := by
  simp [ByteArray.toList, byteArray_toList_loop]

theorem length_toList_toUTF8 (s : String) : s.toUTF8.toList.length = s.utf8ByteSize := by
  simp [byteArray_toList, String.size_toByteArray]

namespace Image

/-! ## Little-endian numbers -/

@[simp] theorem littleEndian_zero (x : Nat) : littleEndian 0 x = [] := rfl

theorem littleEndian_succ (n x : Nat) :
    littleEndian (n + 1) x = (x % 256).toUInt8 :: littleEndian n (x / 256) := by
  simp only [littleEndian, List.range_succ_eq_map, List.map_cons, List.map_map]
  congr 1
  · simp
  · apply List.map_congr_left
    intro i _
    simp only [Function.comp_apply, Nat.div_div_eq_div_mul]
    congr 3
    exact Nat.pow_succ'

@[simp] theorem length_littleEndian (n x : Nat) : (littleEndian n x).length = n := by
  simp [littleEndian]

@[simp] theorem ofLittleEndian_nil : ofLittleEndian [] = 0 := rfl

@[simp] theorem ofLittleEndian_cons (b : UInt8) (bs : List UInt8) :
    ofLittleEndian (b :: bs) = b.toNat + 256 * ofLittleEndian bs := rfl

/-- Reading `n` written bytes gives the number modulo `256 ^ n`. -/
theorem ofLittleEndian_littleEndian (n x : Nat) :
    ofLittleEndian (littleEndian n x) = x % 256 ^ n := by
  induction n generalizing x with
  | zero => simp [Nat.mod_one]
  | succ n ih =>
    rw [littleEndian_succ, ofLittleEndian_cons, ih, Nat.pow_succ', Nat.mod_mul]
    simp [Nat.toUInt8_eq, UInt8.toNat_ofNat', Nat.mod_mod_of_dvd]

/-- Writing a number read from bytes, in as many bytes, gives the bytes back. -/
theorem littleEndian_ofLittleEndian (bs : List UInt8) :
    littleEndian bs.length (ofLittleEndian bs) = bs := by
  induction bs with
  | nil => rfl
  | cons b bs ih =>
    have hb := b.toNat_lt
    rw [List.length_cons, littleEndian_succ, ofLittleEndian_cons]
    congr 1
    · simp [Nat.toUInt8_eq]
    · rw [Nat.add_mul_div_left _ _ (by omega), Nat.div_eq_of_lt (by simpa using hb),
        Nat.zero_add, ih]

/-! ## Code words as byte pairs -/

theorem toNat_pair (lo hi : UInt8) :
    (lo.toUInt16 ||| hi.toUInt16 <<< 8).toNat = lo.toNat + 256 * hi.toNat := by
  have hlo : lo.toNat < 2 ^ 8 := lo.toNat_lt
  have hhi : hi.toNat < 2 ^ 8 := hi.toNat_lt
  have hor := Nat.shiftLeft_add_eq_or_of_lt hlo hi.toNat
  have h8 : (8 : UInt16).toNat % 16 = 8 := rfl
  simp only [UInt16.toNat_or, UInt16.toNat_shiftLeft, UInt8.toNat_toUInt16, h8] at hor ⊢
  rw [Nat.mod_eq_of_lt (by simp [Nat.shiftLeft_eq]; omega), Nat.or_comm, ← hor,
    Nat.shiftLeft_eq]
  omega

theorem littleEndian_two (w : UInt16) :
    littleEndian 2 w.toNat = [(w.toNat % 256).toUInt8, (w.toNat / 256 % 256).toUInt8] := by
  simp [littleEndian_succ]

theorem wordsOf_cons_cons (lo hi : UInt8) (rest : List UInt8) :
    wordsOf (lo :: hi :: rest) = (lo.toUInt16 ||| hi.toUInt16 <<< 8) :: wordsOf rest := rfl

/-- Reading the bytes of written words gives the words back. -/
theorem wordsOf_words (ws : List UInt16) :
    wordsOf (ws.map fun w => littleEndian 2 w.toNat).flatten = ws := by
  induction ws with
  | nil => rfl
  | cons w ws ih =>
    have hw := w.toNat_lt
    have hpair : (w.toNat % 256).toUInt8.toUInt16 ||| (w.toNat / 256 % 256).toUInt8.toUInt16 <<< 8
        = w := by
      apply UInt16.toNat_inj.1
      rw [toNat_pair]
      simp only [Nat.toUInt8_eq, UInt8.toNat_ofNat']
      omega
    rw [List.map_cons, List.flatten_cons, littleEndian_two, List.cons_append, List.cons_append,
      List.nil_append, wordsOf_cons_cons, hpair, ih]

@[simp] theorem length_words (code : List UInt16) :
    ((code.map fun w => littleEndian 2 w.toNat).flatten).length = 2 * code.length := by
  induction code with
  | nil => rfl
  | cons w code ih =>
    simp only [List.map_cons, List.flatten_cons, List.length_append, length_littleEndian, ih,
      List.length_cons]
    omega

/-- Writing the words read from an even number of bytes gives the bytes back. -/
theorem words_wordsOf (bs : List UInt8) (h : bs.length % 2 = 0) :
    ((wordsOf bs).map fun w => littleEndian 2 w.toNat).flatten = bs := by
  fun_induction wordsOf bs with
  | case1 lo hi rest ih =>
    have hrest : rest.length % 2 = 0 := by simp at h; omega
    have hbytes : littleEndian 2 (lo.toUInt16 ||| hi.toUInt16 <<< 8).toNat = [lo, hi] := by
      rw [toNat_pair, show lo.toNat + 256 * hi.toNat = ofLittleEndian [lo, hi] by simp]
      exact littleEndian_ofLittleEndian [lo, hi]
    rw [List.map_cons, List.flatten_cons, hbytes, ih hrest]
    rfl
  | case2 bs hne =>
    rcases bs with _ | ⟨lo, _ | ⟨hi, rest⟩⟩
    · rfl
    · simp at h
    · exact absurd rfl (hne lo hi rest)

/-! ## The include section -/

theorem flatten_names_eq_intercalate {ls : List (List UInt8)} (h : ls ≠ []) :
    (ls.map (· ++ [0x0A])).flatten = [0x0A].intercalate ls ++ [0x0A] := by
  induction ls with
  | nil => contradiction
  | cons l ls ih =>
    cases ls with
    | nil => simp
    | cons l' ls' =>
      rw [List.map_cons, List.flatten_cons, ih (List.cons_ne_nil _ _), List.intercalate_cons_cons]
      simp

/-- Writing the names of a section without its last line end gives the section back. -/
theorem names_splitOn (sec : List UInt8) :
    ((splitLines sec).map (· ++ [0x0A])).flatten = sec ++ [0x0A] := by
  rw [splitLines, flatten_names_eq_intercalate (List.splitOn_ne_nil _ _), List.intercalate_splitOn]

/-- Reading a written include section gives each name cut at its line ends. -/
theorem splitOn_names {ls : List (List UInt8)} (h : ls ≠ []) :
    splitLines ((ls.map (· ++ [0x0A])).flatten.dropLast) = (ls.map (·.splitOn 0x0A)).flatten := by
  rw [flatten_names_eq_intercalate h, List.dropLast_concat, splitLines]
  induction ls with
  | nil => contradiction
  | cons l ls ih =>
    cases ls with
    | nil => simp
    | cons l' ls' =>
      rw [List.intercalate_cons_cons, List.append_assoc, List.singleton_append,
        List.splitOn_append_cons_self, ih (List.cons_ne_nil _ _)]
      simp

end Image

namespace Word

/-! ## The fields of an instruction word -/

theorem toNat_value (w : Word) : w.value.toNat = w.bits.toNat / 128 % 256 := by
  have h7 : (7 : UInt16).toNat % 16 = 7 := rfl
  simp only [value, UInt16.toNat_toUInt8, UInt16.toNat_and, UInt16.toNat_shiftRight, h7,
    Nat.shiftRight_eq_div_pow]
  rw [show (255 : UInt16).toNat = 2 ^ 8 - 1 from rfl, Nat.and_two_pow_sub_one_eq_mod]
  omega

theorem toNat_opcode (w : Word) : w.opcode.toNat = w.bits.toNat % 128 := by
  simp only [opcode, UInt16.toNat_toUInt8, UInt16.toNat_and]
  rw [show (127 : UInt16).toNat = 2 ^ 7 - 1 from rfl, Nat.and_two_pow_sub_one_eq_mod]
  omega

theorem flag_iff (w : Word) : w.flag = true ↔ 32768 ≤ w.bits.toNat := by
  have h15 : (15 : UInt16).toNat % 16 = 15 := rfl
  simp only [flag, bne_iff_ne, ne_eq, ← UInt16.toNat_inj, UInt16.toNat_shiftRight, h15,
    Nat.shiftRight_eq_div_pow, UInt16.toNat_zero]
  omega

theorem toNat_make (f : Bool) (v o : UInt8) :
    (make f v o).bits.toNat = (if f then 32768 else 0) + 128 * v.toNat + o.toNat % 128 := by
  have hv := v.toNat_lt
  have ho : o.toNat % 128 < 2 ^ 7 := Nat.mod_lt _ (by omega)
  have hbase : ((v.toUInt16 <<< 7) ||| (o &&& 0x7F).toUInt16).toNat =
      128 * v.toNat + o.toNat % 128 := by
    have h7 : (7 : UInt16).toNat % 16 = 7 := rfl
    have hor := Nat.shiftLeft_add_eq_or_of_lt ho v.toNat
    simp only [UInt16.toNat_or, UInt16.toNat_shiftLeft, UInt8.toNat_toUInt16, h7,
      UInt8.toNat_and] at hor ⊢
    rw [show (127 : UInt8).toNat = 2 ^ 7 - 1 from rfl, Nat.and_two_pow_sub_one_eq_mod,
      Nat.mod_eq_of_lt (by simp [Nat.shiftLeft_eq]; omega), ← hor, Nat.shiftLeft_eq]
    omega
  cases f with
  | false => simpa [make] using hbase
  | true =>
    have hlt : 128 * v.toNat + o.toNat % 128 < 2 ^ 15 := by omega
    have hor := Nat.shiftLeft_add_eq_or_of_lt hlt 1
    simp only [make, if_true, UInt16.toNat_or, hbase]
    rw [show (0x8000 : UInt16).toNat = 1 <<< 15 from rfl, Nat.or_comm, ← hor, Nat.shiftLeft_eq]
    simp
    omega

@[simp] theorem flag_make (f : Bool) (v o : UInt8) : (make f v o).flag = f := by
  have := toNat_make f v o
  have hv := v.toNat_lt
  have ho : o.toNat % 128 < 128 := Nat.mod_lt _ (by omega)
  rw [Bool.eq_iff_iff, flag_iff, this]
  cases f <;> simp <;> omega

@[simp] theorem value_make (f : Bool) (v o : UInt8) : (make f v o).value = v := by
  have hv := v.toNat_lt
  have ho : o.toNat % 128 < 128 := Nat.mod_lt _ (by omega)
  apply UInt8.toNat_inj.1
  rw [toNat_value, toNat_make]
  cases f <;> simp <;> omega

theorem toNat_opcode_make (f : Bool) (v o : UInt8) :
    (make f v o).opcode.toNat = o.toNat % 128 := by
  rw [toNat_opcode, toNat_make]
  split <;> omega

end Word

end PagedAsm
