import PagedAsm.Text.Numeral

/-!
# What numerals read back

`parseInt64` reads the numerals of ranges, pointers and operands. Its values are signed 64-bit
numbers; the text of a numeral holds only a sign, base letters, digits and underscores, so no
dot and no quote; and the decimal text of every signed 64-bit number reads back as that number,
which is how the assembler's own texts (`LRA 65`, `SRA $300`) are read again after expansion.
-/

namespace PagedAsm

theorem wrapInt64_eq (x : Int) :
    wrapInt64 x = (x + 9223372036854775808) % 18446744073709551616 - 9223372036854775808 := by
  unfold wrapInt64; rfl

theorem wrapInt64_of_bounds {x : Int} (h1 : -9223372036854775808 ≤ x)
    (h2 : x < 9223372036854775808) : wrapInt64 x = x := by
  rw [wrapInt64_eq]; omega

theorem wrapInt64_bounds (x : Int) :
    -9223372036854775808 ≤ wrapInt64 x ∧ wrapInt64 x < 9223372036854775808 := by
  rw [wrapInt64_eq]; omega

theorem wrapInt64_negative {base : Int} {i : Nat} (hbase : base < 9223372036854775808)
    (hi : i < 9223372036854775808) (h : 9223372036854775808 ≤ base + i) :
    wrapInt64 (base + i) < 0 := by
  rw [wrapInt64_eq]; omega

theorem wrapInt64_add_injective {base : Int} {i j : Nat} (hi : i < 18446744073709551616)
    (hj : j < 18446744073709551616) (h : wrapInt64 (base + i) = wrapInt64 (base + j)) : i = j := by
  rw [wrapInt64_eq, wrapInt64_eq] at h
  omega

/-! ### Reading a numeral -/

theorem parseInt64_ok {s : String} {v : Int} (h : parseInt64 s = .ok v) :
    ∃ body n, readUnsigned .auto 18446744073709551615 body = .ok n ∧
      ((s.toList = '-' :: body ∧ n ≤ 9223372036854775808 ∧ v = -(n : Int)) ∨
       ((s.toList = '+' :: body ∨ s.toList = body) ∧ n < 9223372036854775808 ∧ v = n)) := by
  unfold parseInt64 parseIntBits at h
  dsimp only at h
  split at h
  · cases h
  · cases h
  · rename_i n hn
    have hB : Nat.pow 2 (64 - 1) = 9223372036854775808 := rfl
    rw [hB] at h
    refine ⟨_, n, hn, ?_⟩
    split at h <;> rename_i hs <;> simp only [Bool.false_eq_true, ↓reduceIte] at h <;>
      split at h <;> cases h
    · exact .inr ⟨.inl hs, by omega, rfl⟩
    · exact .inl ⟨hs, by omega, rfl⟩
    · exact .inr ⟨.inr rfl, by omega, rfl⟩

theorem parseInt64_bounds {s : String} {v : Int} (h : parseInt64 s = .ok v) :
    -9223372036854775808 ≤ v ∧ v < 9223372036854775808 := by
  obtain ⟨_, n, _, ⟨-, hn, rfl⟩ | ⟨-, hn, rfl⟩⟩ := parseInt64_ok h <;> omega

theorem readDigits_cons_ok {base limit : Nat} {u : Bool} {r : Nat × Bool} {acc : Nat}
    {seen : Bool} {d : Char} {cs : List Char}
    (h : readDigits base limit u acc seen (d :: cs) = .ok r) :
    (d = '_' ∨ (digitValue? d).isSome) ∧ ∃ acc' seen', readDigits base limit u acc' seen' cs = .ok r := by
  unfold readDigits at h
  split at h
  · rename_i hd
    exact ⟨.inl hd.1, _, _, h⟩
  · split at h
    · cases h
    · rename_i e he
      split at h
      · cases h
      · split at h
        · cases h
        · exact ⟨.inr (by simp [he]), _, _, h⟩

theorem mem_of_readDigits {base limit : Nat} {u : Bool} {r : Nat × Bool} {c : Char} :
    ∀ {cs : List Char} {acc : Nat} {seen : Bool}, readDigits base limit u acc seen cs = .ok r →
      c ∈ cs → c = '_' ∨ (digitValue? c).isSome
  | [], _, _, _, hc => by simp at hc
  | d :: cs, _, _, h, hc => by
    obtain ⟨hd, _, _, h⟩ := readDigits_cons_ok h
    rcases List.mem_cons.1 hc with rfl | hc
    · exact hd
    · exact mem_of_readDigits h hc

theorem mem_splitPrefix {c : Char} {cs : List Char} (hc : c ∈ cs) :
    c ∈ (splitPrefix .auto cs).2 ∨ c = '0' ∨ foldCase c = 'b' ∨ foldCase c = 'o' ∨
      foldCase c = 'x' := by
  unfold splitPrefix
  split
  · rename_i heq; cases heq
  · rcases List.mem_cons.1 hc with rfl | hc
    · exact .inr (.inl rfl)
    repeat' split
    all_goals rcases List.mem_cons.1 hc with rfl | hc <;> simp_all
  · rcases List.mem_cons.1 hc with rfl | hc
    · exact .inr (.inl rfl)
    · exact .inl hc
  · exact .inl hc

theorem mem_of_readUnsigned {limit n : Nat} {c : Char} {cs : List Char}
    (h : readUnsigned .auto limit cs = .ok n) (hc : c ∈ cs) :
    c = '_' ∨ (digitValue? c).isSome ∨ foldCase c = 'b' ∨ foldCase c = 'o' ∨
      foldCase c = 'x' := by
  unfold readUnsigned at h
  split at h
  · cases h
  · split at h
    rename_i hsplit
    split at h
    · cases h
    · rename_i hd
      rcases mem_splitPrefix hc with hc | rfl | hb
      · rw [hsplit] at hc
        exact (mem_of_readDigits hd hc).imp_right .inl
      · exact .inr (.inl rfl)
      · exact .inr (.inr hb)

theorem mem_of_parseInt64 {s : String} {v : Int} {c : Char} (h : parseInt64 s = .ok v)
    (hc : c ∈ s.toList) :
    c = '+' ∨ c = '-' ∨ c = '_' ∨ (digitValue? c).isSome ∨ foldCase c = 'b' ∨
      foldCase c = 'o' ∨ foldCase c = 'x' := by
  obtain ⟨body, n, hn, ⟨hs, -⟩ | ⟨hs | hs, -⟩⟩ := parseInt64_ok h <;> rw [hs] at hc
  · rcases List.mem_cons.1 hc with rfl | hc
    · exact .inr (.inl rfl)
    · exact .inr (.inr (mem_of_readUnsigned hn hc))
  · rcases List.mem_cons.1 hc with rfl | hc
    · exact .inl rfl
    · exact .inr (.inr (mem_of_readUnsigned hn hc))
  · exact .inr (.inr (mem_of_readUnsigned hn hc))

theorem dot_not_mem_of_parseInt64 {s : String} {v : Int} (h : parseInt64 s = .ok v) :
    '.' ∉ s.toList := fun hc => by
  rcases mem_of_parseInt64 h hc with h | h | h | h | h | h | h <;> revert h <;> decide

theorem quote_not_mem_of_parseInt64 {s : String} {v : Int} (h : parseInt64 s = .ok v) :
    '"' ∉ s.toList := fun hc => by
  rcases mem_of_parseInt64 h hc with h | h | h | h | h | h | h <;> revert h <;> decide

theorem dollar_not_mem_of_parseInt64 {s : String} {v : Int} (h : parseInt64 s = .ok v) :
    '$' ∉ s.toList := fun hc => by
  rcases mem_of_parseInt64 h hc with h | h | h | h | h | h | h <;> revert h <;> decide

/-! ### Writing a number in decimal -/

theorem toNat_of_isDigit {c : Char} (h : c.isDigit) : 48 ≤ c.toNat ∧ c.toNat ≤ 57 := by
  simp only [Char.isDigit, Bool.and_eq_true, decide_eq_true_eq] at h
  exact ⟨UInt32.le_iff_toNat_le.1 h.1, UInt32.le_iff_toNat_le.1 h.2⟩

theorem digitValue?_of_isDigit {c : Char} (h : c.isDigit) :
    digitValue? c = some (c.toNat - '0'.toNat) := by
  have hc := toNat_of_isDigit h
  unfold digitValue?
  rw [if_pos ⟨Char.le_def.2 (UInt32.le_iff_toNat_le.2 hc.1),
    Char.le_def.2 (UInt32.le_iff_toNat_le.2 hc.2)⟩]

theorem le_ofDigitChars (cs : List Char) (acc : Nat) : acc ≤ Nat.ofDigitChars 10 cs acc := by
  induction cs generalizing acc with
  | nil => exact Nat.le_refl _
  | cons c cs ih =>
    show acc ≤ Nat.ofDigitChars 10 cs (10 * acc + (c.toNat - '0'.toNat))
    exact Nat.le_trans (by omega) (ih _)

theorem readDigits_decimal {limit : Nat} {u seen : Bool} :
    ∀ {cs : List Char} {acc : Nat}, (∀ c ∈ cs, c.isDigit) →
      Nat.ofDigitChars 10 cs acc ≤ limit →
      readDigits 10 limit u acc seen cs = .ok (Nat.ofDigitChars 10 cs acc, seen)
  | [], _, _, _ => rfl
  | c :: cs, acc, hd, hle => by
    have hc : c.isDigit := hd c (List.mem_cons_self ..)
    have hb := toNat_of_isDigit hc
    have h0 : '0'.toNat = 48 := rfl
    have hnext : Nat.ofDigitChars 10 (c :: cs) acc =
        Nat.ofDigitChars 10 cs (10 * acc + (c.toNat - '0'.toNat)) := rfl
    have hstep := le_ofDigitChars cs (10 * acc + (c.toNat - '0'.toNat))
    have hnu : ¬(c = '_' ∧ u = true) := fun h => by rw [h.1] at hc; exact absurd hc (by decide)
    unfold readDigits
    rw [if_neg hnu, digitValue?_of_isDigit hc, hnext]
    dsimp only
    rw [if_neg (by omega), if_neg (by omega)]
    rw [Nat.mul_comm acc 10]
    exact readDigits_decimal (fun c hc => hd c (List.mem_cons_of_mem _ hc)) (hnext ▸ hle)

theorem toDigits_head (n : Nat) (hn : 0 < n) :
    ∃ c rest, Nat.toDigits 10 n = c :: rest ∧ c ≠ '0' := by
  induction n using Nat.strongRecOn with
  | ind n ih =>
    rw [Nat.toDigits_eq_if (by decide)]
    split
    · rename_i hlt
      have hd : ∀ d < 10, d ≠ 0 → Nat.digitChar d ≠ '0' := by decide
      exact ⟨_, _, rfl, hd n hlt (by omega)⟩
    · obtain ⟨c, rest, h, hc⟩ := ih (n / 10) (by omega) (by omega)
      exact ⟨c, rest ++ _, by rw [h]; rfl, hc⟩

theorem readUnsigned_toDigits {limit n : Nat} (hn : n ≤ limit) :
    readUnsigned .auto limit (Nat.toDigits 10 n) = .ok n := by
  rcases Nat.eq_zero_or_pos n with rfl | hpos
  · rfl
  obtain ⟨c, rest, hcs, hc⟩ := toDigits_head n hpos
  have hdig : ∀ d ∈ Nat.toDigits 10 n, d.isDigit := fun _ hd =>
    Nat.isDigit_of_mem_toDigits (by decide) (by decide) hd
  have hread : readDigits 10 limit true 0 false (Nat.toDigits 10 n) =
      .ok (Nat.ofDigitChars 10 (Nat.toDigits 10 n) 0, false) :=
    readDigits_decimal hdig (by rw [Nat.ofDigitChars_ten_toDigits]; exact hn)
  rw [Nat.ofDigitChars_ten_toDigits, hcs] at hread
  have hprefix : splitPrefix .auto (c :: rest) = (10, c :: rest) := by
    unfold splitPrefix
    split <;> simp_all
  unfold readUnsigned
  rw [hcs, hprefix]
  simp [hread]

theorem parseInt64_of_unsigned {s : String} {c : Char} {rest : List Char} {n : Nat}
    (hs : s.toList = c :: rest) (hp : c ≠ '+') (hm : c ≠ '-')
    (hn : readUnsigned .auto 18446744073709551615 (c :: rest) = .ok n)
    (hlt : n < 9223372036854775808) : parseInt64 s = .ok n := by
  unfold parseInt64 parseIntBits
  simp only [hs]
  have hL : Nat.pow 2 64 - 1 = 18446744073709551615 := rfl
  split <;> rename_i heq <;> split at heq <;> try (rename_i h; cases h; contradiction)
  all_goals dsimp only at heq ⊢; rw [hL, hn] at heq; cases heq
  simp [Nat.not_le.2 hlt]

theorem parseInt64_of_negative {s : String} {body : List Char} {n : Nat}
    (hs : s.toList = '-' :: body) (hn : readUnsigned .auto 18446744073709551615 body = .ok n)
    (hle : n ≤ 9223372036854775808) : parseInt64 s = .ok (-(n : Int)) := by
  unfold parseInt64 parseIntBits
  simp only [hs]
  have hL : Nat.pow 2 64 - 1 = 18446744073709551615 := rfl
  rw [hL, hn]
  simp [Nat.not_lt.2 hle]

theorem parseInt64_toString {z : Int} (h1 : -9223372036854775808 ≤ z)
    (h2 : z < 9223372036854775808) : parseInt64 (toString z) = .ok z := by
  have hz : toString z = z.repr := rfl
  rw [hz, Int.repr_eq_if]
  split
  · rename_i hnn
    rcases Nat.eq_zero_or_pos z.toNat with h0 | hpos
    · have : z = 0 := by omega
      subst this; rfl
    obtain ⟨c, rest, hcs, -⟩ := toDigits_head z.toNat hpos
    have hdig : c.isDigit := Nat.isDigit_of_mem_toDigits (by decide) (by decide) (hcs ▸ List.mem_cons_self ..)
    have hread : readUnsigned .auto 18446744073709551615 (Nat.toDigits 10 z.toNat) = .ok z.toNat :=
      readUnsigned_toDigits (by omega)
    rw [hcs] at hread
    have : parseInt64 z.toNat.repr = .ok (z.toNat : Int) :=
      parseInt64_of_unsigned (by rw [Nat.repr_eq_ofList_toDigits, String.toList_ofList, hcs])
      (by rintro rfl; exact absurd hdig (by decide)) (by rintro rfl; exact absurd hdig (by decide))
      hread (by omega)
    rw [this]; congr 1; omega
  · have hread : readUnsigned .auto 18446744073709551615 (Nat.toDigits 10 (-z).toNat) =
        .ok (-z).toNat := readUnsigned_toDigits (by omega)
    have : parseInt64 ("-" ++ (-z).toNat.repr) = .ok (-((-z).toNat : Int)) :=
      parseInt64_of_negative (by simp [Nat.repr_eq_ofList_toDigits])
      hread (by omega)
    rw [this]; congr 1; omega

end PagedAsm
