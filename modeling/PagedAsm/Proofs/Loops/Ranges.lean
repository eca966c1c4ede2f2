import PagedAsm.Proofs.Text.Numerals
import PagedAsm.Assembly.Expansion

/-!
# The values of loop ranges

`Denotes constants arity range values` says what the range of a `FOR` header stands for, form by
form, as the language describes it: `a..b` counts up from `a` to `b-1`, or down from `a-1` to
`b`; `n` counts from 0; `LEN s` counts the characters of `s`; a string gives its code points;
`ENUMERATE s` gives each index with the code point there. `iterations_of_denotes` shows that
the header gives exactly those values, and is refused with `rangeTooLong` exactly when there are
more than 65536 of them. For `a..b` the limit is checked on `b - a` in wrapping 64-bit
arithmetic, and the check is exact for all 64-bit bounds.
-/

namespace PagedAsm

namespace Loop

/-! ### Texts of ranges -/

theorem cutRange_append {r : List Char} :
    ∀ {l : List Char}, '.' ∉ l → Bindings.cutRange (l ++ '.' :: '.' :: r) = some (l, r)
  | [], _ => rfl
  | c :: l, hl => by
    have hc : c ≠ '.' := fun h => hl (h ▸ List.mem_cons_self ..)
    have ih := cutRange_append (r := r) (fun h => hl (List.mem_cons_of_mem _ h))
    rw [List.cons_append, Bindings.cutRange.eq_2 _ _ (fun _ h _ => hc h), ih]
    rfl

theorem cutRange_eq_none : ∀ {cs : List Char}, '.' ∉ cs → Bindings.cutRange cs = none
  | [], _ => rfl
  | c :: cs, h => by
    have hc : c ≠ '.' := fun e => h (e ▸ List.mem_cons_self ..)
    have ih := cutRange_eq_none (fun e => h (List.mem_cons_of_mem _ e))
    rw [Bindings.cutRange.eq_2 _ _ (fun _ h _ => hc h), ih]
    rfl

theorem splitRange?_append {lhs rhs : String} (hl : '.' ∉ lhs.toList) :
    Bindings.splitRange? (lhs ++ ".." ++ rhs) = some (lhs, rhs) := by
  have hcs : (lhs ++ ".." ++ rhs).toList = lhs.toList ++ '.' :: '.' :: rhs.toList := by simp
  simp [Bindings.splitRange?, hcs, cutRange_append hl]

theorem splitRange?_eq_none {text : String} (h : '.' ∉ text.toList) :
    Bindings.splitRange? text = none := by
  simp [Bindings.splitRange?, cutRange_eq_none h]

theorem isQuoted_eq_false {text : String} (h : text.toList.head? ≠ some '"') :
    StringLiteral.isQuoted text = false := by
  simp [StringLiteral.isQuoted, h]

theorem head?_ne_quote_of_parseInt64 {text : String} {v : Int} (h : parseInt64 text = .ok v) :
    text.toList.head? ≠ some '"' := fun hh =>
  quote_not_mem_of_parseInt64 h (List.mem_of_head? hh)

theorem head?_ne_quote_of_span {lhs : String} (rhs : String) {a : Int}
    (ha : parseInt64 lhs = .ok a) :
    (lhs ++ ".." ++ rhs).toList.head? ≠ some '"' := by
  have hcs : (lhs ++ ".." ++ rhs).toList = lhs.toList ++ '.' :: '.' :: rhs.toList := by simp
  rw [hcs]
  cases hl : lhs.toList with
  | nil => simp
  | cons c cs =>
    intro hh
    simp only [List.cons_append, List.head?_cons, Option.some.injEq] at hh
    exact quote_not_mem_of_parseInt64 ha (by rw [hl, hh]; exact List.mem_cons_self ..)

/-! ### Counting -/

theorem ascending_eq {site : Token} {start stop : Int} (h1 : start ≤ stop)
    (h2 : stop - start < 18446744073709551616) :
    ascending site start stop =
      if (stop - start).toNat > maxIterations then .error (Problem.rangeTooLong.atToken site)
      else .ok ((List.range (stop - start).toNat).map fun i : Nat => start + (i : Int)) := by
  have hcond : (wrapInt64 (stop - start) > maxIterations ∨ wrapInt64 (stop - start) < 0) ↔
      (stop - start).toNat > maxIterations := by
    rw [wrapInt64_eq]; simp only [maxIterations]; omega
  unfold ascending
  simp only [hcond]

theorem map_range_eq_ofFn {α : Type} (n : Nat) (f : Nat → α) :
    (List.range n).map f = List.ofFn fun i : Fin n => f i := by
  apply List.ext_getElem <;> simp

theorem reverse_map_range (n : Nat) (b : Int) :
    ((List.range n).map fun i : Nat => b + (i : Int)).reverse =
      List.ofFn fun i : Fin n => b + n - 1 - i := by
  apply List.ext_getElem
  · simp
  · intro i h1 h2
    simp only [List.getElem_reverse, List.getElem_map, List.getElem_range, List.getElem_ofFn,
      List.length_map, List.length_range]
    simp only [List.length_reverse, List.length_map, List.length_range] at h1
    omega

/-! ### The forms of a range -/

/-- What the range tokens of a loop header stand for, given the constants the header sees: one
list of variable texts per iteration. -/
inductive Denotes (constants : Bindings) : Nat → List Token → List (List String) → Prop where
  /-- `a..b` with `a ≤ b` counts up: `a, a+1, …, b-1`. -/
  | up {t : Token} {lhs rhs : String} {a b : Int} (text : t.text = lhs ++ ".." ++ rhs)
      (start : parseInt64 lhs = .ok a) (stop : parseInt64 rhs = .ok b) (le : a ≤ b) :
      Denotes constants 1 [t] (List.ofFn fun i : Fin (b - a).toNat => [toString (a + i)])
  /-- `a..b` with `b < a` counts down: `a-1, a-2, …, b`. -/
  | down {t : Token} {lhs rhs : String} {a b : Int} (text : t.text = lhs ++ ".." ++ rhs)
      (start : parseInt64 lhs = .ok a) (stop : parseInt64 rhs = .ok b) (lt : b < a) :
      Denotes constants 1 [t] (List.ofFn fun i : Fin (a - b).toNat => [toString (a - 1 - i)])
  /-- A number `n ≥ 0` counts `0, 1, …, n-1`. -/
  | count {t : Token} {n : Int} (value : parseInt64 t.text = .ok n) (nonneg : 0 ≤ n) :
      Denotes constants 1 [t] (List.ofFn fun i : Fin n.toNat => [toString (i : Int)])
  /-- `LEN s` counts `0, 1, …, k-1` over the `k` characters of the string `s` stands for
  (a length is a signed 64-bit number). -/
  | len {l t s : Token} {v : String} (keyword : l.text = "LEN")
      (bound : constants.apply t = .token s) (literal : StringLiteral.unquote s.text = .ok v)
      (fits : v.length < 9223372036854775808) :
      Denotes constants 1 [l, t] (List.ofFn fun i : Fin v.length => [toString (i : Int)])
  /-- A string literal gives the code points of its characters, in order. -/
  | chars {t : Token} {v : String} (literal : StringLiteral.unquote t.text = .ok v) :
      Denotes constants 1 [t] (v.toList.map fun c => [toString (c.toNat : Int)])
  /-- `ENUMERATE s`, over two variables, gives each index with the code point there. -/
  | enumerate {e t : Token} {v : String} (keyword : e.text = "ENUMERATE")
      (literal : StringLiteral.unquote t.text = .ok v) :
      Denotes constants 2 [e, t]
        (List.ofFn fun i : Fin v.toList.length => [toString (i : Nat), toString v.toList[i].toNat])

theorem unquoteAt_ok {t : Token} {v : String} (h : StringLiteral.unquote t.text = .ok v) :
    unquoteAt t = .ok v := by
  simp [unquoteAt, h]

theorem lengthOf_token {constants : Bindings} {keyword t s : Token} {v : String}
    (hs : constants.apply t = .token s) (hv : StringLiteral.unquote s.text = .ok v) :
    lengthOf constants keyword (.leaf (.token t)) = .ok v.length := by
  simp [lengthOf, hs, unquoteAt_ok hv, bind, Except.bind, pure, Except.pure]

theorem iterations_single {constants : Bindings} {keyword head : Token} {rest : List Token}
    (hne : head.text ≠ "ENUMERATE") :
    iterations constants keyword 1 (head :: rest) =
      (rangeValues constants (head :: rest)).map fun ints => ints.map fun i => [toString i] := by
  simp only [iterations, hne, ↓reduceIte, ne_eq, not_true_eq_false]
  cases rangeValues constants (head :: rest) <;> rfl

theorem rangeValues_count {constants : Bindings} {t : Token} {n : Int}
    (hn : parseInt64 t.text = .ok n) (hnn : 0 ≤ n) :
    rangeValues constants [t] = ascending t 0 n := by
  have hq := isQuoted_eq_false (head?_ne_quote_of_parseInt64 hn)
  have hs := splitRange?_eq_none (dot_not_mem_of_parseInt64 hn)
  simp [rangeValues, hq, hs, hn, Int.not_lt.2 hnn]

theorem span_ne_enumerate {t : Token} {lhs rhs : String} (ht : t.text = lhs ++ ".." ++ rhs) :
    t.text ≠ "ENUMERATE" := fun h => by
  have hdot : '.' ∈ t.text.toList := by rw [ht]; simp
  rw [h] at hdot
  exact absurd hdot (by simp)

theorem rangeValues_span {constants : Bindings} {t : Token} {lhs rhs : String} {a b : Int}
    (ht : t.text = lhs ++ ".." ++ rhs) (ha : parseInt64 lhs = .ok a)
    (hb : parseInt64 rhs = .ok b) :
    rangeValues constants [t] =
      if a ≤ b then ascending t a b else (ascending t b a).map List.reverse := by
  have hq := isQuoted_eq_false (ht ▸ head?_ne_quote_of_span rhs ha)
  have hs : Bindings.splitRange? t.text = some (lhs, rhs) :=
    ht ▸ splitRange?_append (dot_not_mem_of_parseInt64 ha)
  simp only [rangeValues, List.length_nil, Nat.zero_ne_one, false_and, ↓reduceIte, hq,
    Bool.false_eq_true, hs, ha, hb]
  split
  · rfl
  · cases ascending t b a <;> rfl

theorem isQuoted_of_unquote {text v : String} (hv : StringLiteral.unquote text = .ok v) :
    StringLiteral.isQuoted text = true := by
  unfold StringLiteral.unquote at hv
  split at hv
  · assumption
  · cases hv

theorem rangeValues_chars {constants : Bindings} {t : Token} {v : String}
    (hv : StringLiteral.unquote t.text = .ok v) :
    rangeValues constants [t] =
      if v.length > maxIterations then .error (Problem.rangeTooLong.atToken t)
      else .ok (v.toList.map fun c => (c.toNat : Int)) := by
  have hq := isQuoted_of_unquote hv
  simp only [rangeValues, List.length_nil, Nat.zero_ne_one, false_and, ↓reduceIte, hq,
    unquoteAt_ok hv, checkCount]
  split <;> simp [*, bind, Except.bind, pure, Except.pure]

theorem rangeValues_len {constants : Bindings} {l t s : Token} {v : String}
    (hl : l.text = "LEN") (hs : constants.apply t = .token s)
    (hv : StringLiteral.unquote s.text = .ok v) :
    rangeValues constants [l, t] = ascending l 0 v.length := by
  simp [rangeValues, hl, lengthOf_token hs hv, bind, Except.bind]

/-! ### Values and limit -/

theorem map_ite_error {α β : Type} (f : α → β) (c : Prop) [Decidable c] (d : Diagnostic)
    (x : α) :
    Except.map f (if c then .error d else .ok x) = if c then .error d else .ok (f x) := by
  split <;> rfl

/-- The header gives exactly the values its range denotes, and is refused at its first token
with `rangeTooLong` exactly when they are more than 65536. -/
theorem iterations_of_denotes {constants : Bindings} {keyword site : Token} {arity : Nat}
    {rest : List Token} {values : List (List String)}
    (h : Denotes constants arity (site :: rest) values) :
    iterations constants keyword arity (site :: rest) =
      if values.length > maxIterations then .error (Problem.rangeTooLong.atToken site)
      else .ok values := by
  cases h with
  | up ht ha hb hab =>
    rename_i a b
    have hne := span_ne_enumerate ht
    have hbounds := parseInt64_bounds ha
    have hbounds' := parseInt64_bounds hb
    rw [iterations_single hne, rangeValues_span ht ha hb, if_pos hab,
      ascending_eq hab (by omega), map_ite_error, List.length_ofFn, List.map_map,
      map_range_eq_ofFn]
    rfl
  | down ht ha hb hba =>
    rename_i a b
    have hne := span_ne_enumerate ht
    have hbounds := parseInt64_bounds ha
    have hbounds' := parseInt64_bounds hb
    have hn : (((a - b).toNat : Nat) : Int) = a - b := Int.toNat_of_nonneg (by omega)
    rw [iterations_single hne, rangeValues_span ht ha hb, if_neg (by omega),
      ascending_eq (by omega : b ≤ a) (by omega), map_ite_error, map_ite_error,
      List.length_ofFn, reverse_map_range, List.map_ofFn]
    have hshift : ∀ x : Int, b + (a - b) - 1 - x = a - 1 - x := fun x => by omega
    simp only [Function.comp_def, hn, hshift]
  | count hn hnn =>
    rename_i n
    have hne : site.text ≠ "ENUMERATE" := fun h => by
      rw [h] at hn; exact absurd hn (by rw [show parseInt64 "ENUMERATE" = .error .invalidSyntax from rfl]; simp)
    have hbounds := parseInt64_bounds hn
    rw [iterations_single hne, rangeValues_count hn hnn, ascending_eq (by omega) (by omega),
      map_ite_error, List.length_ofFn, Int.sub_zero, List.map_map, map_range_eq_ofFn]
    simp only [Function.comp_def, Int.zero_add]
  | len hl hs hv hfits =>
    have hne : site.text ≠ "ENUMERATE" := by simp [hl]
    rw [iterations_single hne, rangeValues_len hl hs hv, ascending_eq (by omega) (by omega),
      map_ite_error, List.length_ofFn, Int.sub_zero, Int.toNat_natCast, List.map_map,
      map_range_eq_ofFn]
    simp only [Function.comp_def, Int.zero_add]
  | chars hv =>
    have hq := isQuoted_of_unquote hv
    have hne : site.text ≠ "ENUMERATE" := fun h => by
      rw [h] at hq; exact absurd hq (by rw [show StringLiteral.isQuoted "ENUMERATE" = false from rfl]; simp)
    rw [iterations_single hne, rangeValues_chars hv, map_ite_error, List.length_map,
      String.length_toList, List.map_map]
    rfl
  | enumerate he hv =>
    rename_i v
    have hvals : (v.toList.zipIdx.map fun x => [toString x.2, toString x.1.toNat]) =
        List.ofFn fun i : Fin v.toList.length => [toString (i : Nat), toString v.toList[i].toNat] := by
      apply List.ext_getElem <;> simp [List.getElem_zipIdx]
    simp only [iterations, he, ↓reduceIte, unquoteAt_ok hv, checkCount, ne_eq,
      not_true_eq_false, List.length_singleton, false_or, bind, Except.bind, hvals,
      List.length_ofFn]
    by_cases hc : v.toList.length > maxIterations <;> simp [hc, pure, Except.pure]

theorem operands_len {ctx : Context} {l l' t s : Token} {v : String} {rest : List Node}
    {acc : List Operand} (hl : ctx.constants.apply l = .token l') (hlen : l'.text = "LEN")
    (ht : ctx.constants.apply t = .token s) (hv : StringLiteral.unquote s.text = .ok v) :
    Expansion.operands ctx (.leaf (.token l) :: .leaf (.token t) :: rest) acc =
      Expansion.operands ctx rest (.token (l'.withText (toString v.length)) :: acc) := by
  simp [Expansion.operands, hl, hlen, lengthOf_token ht hv, bind, Except.bind]

/-- Loop ranges: every header form gives exactly the values it denotes, the header is refused
with `range exceeds 65536 iterations` exactly when those are more than 65536, whatever the 64-bit
bounds of `a..b`, and `LEN s` as an operand is the count that the range `LEN s` runs over. -/
theorem loop_ranges_enumerate_exactly :
    (∀ (constants : Bindings) (keyword site : Token) (arity : Nat) (rest : List Token)
        (values : List (List String)),
      Denotes constants arity (site :: rest) values →
      iterations constants keyword arity (site :: rest) =
        if values.length > maxIterations then .error (Problem.rangeTooLong.atToken site)
        else .ok values) ∧
    (∀ (ctx : Context) (l l' t s : Token) (v : String) (rest : List Node) (acc : List Operand),
      ctx.constants.apply l = .token l' → l'.text = "LEN" → ctx.constants.apply t = .token s →
      StringLiteral.unquote s.text = .ok v →
      Expansion.operands ctx (.leaf (.token l) :: .leaf (.token t) :: rest) acc =
        Expansion.operands ctx rest (.token (l'.withText (toString v.length)) :: acc)) ∧
    (∀ site : Token, (Problem.rangeTooLong.atToken site).message =
      "range exceeds 65536 iterations") :=
  ⟨fun _ _ _ _ _ _ h => iterations_of_denotes h,
   fun _ _ _ _ _ _ _ _ hl hlen ht hv => operands_len hl hlen ht hv,
   fun _ => rfl⟩

/-- The widest 64-bit range, whose difference wraps to -1, is refused. -/
theorem widest_range_refused :
    Denotes Bindings.empty 1
        [⟨.word, "-9223372036854775808..9223372036854775807", ⟨9, 49, by omega⟩, 1⟩]
        (List.ofFn fun i : Fin (9223372036854775807 - -9223372036854775808 : Int).toNat =>
          [toString (-9223372036854775808 + (i : Int))]) ∧
      iterations Bindings.empty ⟨.word, "FOR", ⟨0, 3, by omega⟩, 1⟩ 1
        [⟨.word, "-9223372036854775808..9223372036854775807", ⟨9, 49, by omega⟩, 1⟩] =
      .error (Problem.rangeTooLong.atToken
        ⟨.word, "-9223372036854775808..9223372036854775807", ⟨9, 49, by omega⟩, 1⟩) := by
  have hden : Denotes Bindings.empty 1
      [⟨.word, "-9223372036854775808..9223372036854775807", ⟨9, 49, by omega⟩, 1⟩]
      (List.ofFn fun i : Fin (9223372036854775807 - -9223372036854775808 : Int).toNat =>
        [toString (-9223372036854775808 + (i : Int))]) :=
    @Denotes.up _ _ "-9223372036854775808" "9223372036854775807" _ _ rfl rfl rfl (by decide)
  refine ⟨hden, ?_⟩
  rw [loop_ranges_enumerate_exactly.1 _ _ _ _ _ _ hden, List.length_ofFn]
  rfl

end Loop

end PagedAsm
