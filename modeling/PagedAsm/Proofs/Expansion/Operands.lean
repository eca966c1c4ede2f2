import PagedAsm.Assembly.Compile

/-!
# What a `$name` word denotes

A `$name` word reaches an operand by two paths. Written on an instruction's or an `ASSIGN`'s
line, it was tied to the label `name` when the run's labels were gathered, if one is visible;
only a word left untied goes through the constants. Passed as a macro argument, it is not tied
(ties do not look inside brackets), so the constants go first and the label is looked up after.

The two paths agree unless a visible label and a constant share the name
(`dollar_argument_matches_operand`). Where they share it, the argument takes the constant
(`constant_shadows_label_in_argument`).
-/

namespace PagedAsm

theorem labelName?_eq_some {text name : String} (h : labelName? text = some name) :
    text.toList = '$' :: name.toList := by
  unfold labelName? at h
  split at h
  · rename_i rest hrest
    rw [hrest]
    by_cases hid : isIdentifier (String.ofList rest)
    · rw [if_pos hid] at h
      cases h
      simp
    · rw [if_neg hid] at h
      cases h
  · cases h

namespace Bindings

variable {b : Bindings} {t t' : Token}

theorem apply_dollar_unbound {name : String} (hname : labelName? t.text = some name)
    (hself : b.find? t.text = none) (hfree : b.find? name = none) : b.apply t = .token t := by
  have htext := labelName?_eq_some hname
  unfold apply
  split
  · rfl
  · rw [hself, htext]
    simp only [String.ofList_toList, hfree]

theorem apply_dollar_ne_len {rest : List Char} (htext : t.text.toList = '$' :: rest)
    (hself : b.find? t.text = none) (h : b.apply t = .token t') : t'.text ≠ "LEN" := by
  have hne : ∀ s : String, s.toList.head? = some '$' → s ≠ "LEN" := by
    rintro s hs rfl
    simp at hs
  apply hne
  unfold apply at h
  split at h
  · cases h
    simp [htext]
  · rw [hself, htext] at h
    cases hv : b.find? (String.ofList rest) with
    | none =>
      simp only [hv] at h
      cases h
      simp [htext]
    | some o =>
      cases o with
      | label l =>
        simp only [hv] at h
        cases h
      | token v =>
        simp only [hv] at h
        by_cases hs : v.text.startsWith "$"
        · rw [if_pos hs] at h
          cases h
          have hpre : ['$'] <+: v.text.toList := by simpa using hs
          obtain ⟨u, hu⟩ := hpre
          simp [Token.withText, ← hu]
        · rw [if_neg hs] at h
          cases h
          simp [Token.withText]

end Bindings

namespace Expansion

theorem ok_bind_mapM_single {ε α : Type} (f : α → Except ε α) (x : α) :
    (Except.ok [x] >>= List.mapM f) = (f x).map fun v => [v] := by
  show List.mapM f [x] = _
  cases h : f x <;> simp [List.mapM_cons, h] <;> rfl

variable {ctx : Context} {t : Token}

theorem arguments_word (hword : t.kind = .word) :
    arguments ctx [.leaf (.token t)] [] = (checkOperand ctx (ctx.constants.apply t)).map fun v => [v] := by
  have hline : t.isNewline = false := by simp [Token.isNewline, hword]
  rw [arguments, if_neg (by simp [hline])]
  cases checkOperand ctx (ctx.constants.apply t) <;> rfl

theorem checked_operands_word (hlen : ∀ t', ctx.constants.apply t = .token t' → t'.text ≠ "LEN") :
    (operands ctx [.leaf (.token t)] [] >>= List.mapM (checkOperand ctx)) =
      (checkOperand ctx (ctx.constants.apply t)).map fun v => [v] := by
  cases happly : ctx.constants.apply t with
  | token t' =>
    have hne := hlen t' happly
    simp only [operands, happly, if_neg hne, List.reverse_singleton]
    exact ok_bind_mapM_single _ _
  | label l =>
    simp only [operands, happly, List.reverse_singleton]
    exact ok_bind_mapM_single _ _

theorem checked_operands_ref (l : LabelSite) :
    (operands ctx [.leaf (.labelRef l)] [] >>= List.mapM (checkOperand ctx)) = .ok [.label l] :=
  rfl

theorem checkOperand_visible {name : String} {id : Nat} (hname : labelName? t.text = some name)
    (hid : ctx.labels.find? name = some id) :
    checkOperand ctx (.token t) = .ok (.label ⟨id, name, t.span, t.line⟩) := by
  simp only [checkOperand, hname, hid]

/-- A `$name` word denotes the same operand as a macro argument and written on an instruction's
or an `ASSIGN`'s line of the caller, once checked, unless a visible label and a constant share
the name: the label when one is visible, else what the constant makes of it, checked. The word
on the line was tied by `Discovery.resolveReference` with the caller's labels, as gathering the
run's labels does. -/
theorem dollar_argument_matches_operand {name : String} (hword : t.kind = .word)
    (hname : labelName? t.text = some name) (hself : ctx.constants.find? t.text = none)
    (hfree : ctx.labels.find? name = none ∨ ctx.constants.find? name = none) :
    arguments ctx [.leaf (.token t)] [] =
      (operands ctx [.leaf (Discovery.resolveReference ctx.labels t)] [] >>=
        List.mapM (checkOperand ctx)) := by
  rw [arguments_word hword]
  have href := labelName?_eq_some hname
  cases hid : ctx.labels.find? name with
  | some id =>
    have hunbound : ctx.constants.find? name = none := by
      rcases hfree with hnone | hunbound
      · rw [hid] at hnone
        cases hnone
      · exact hunbound
    have htie : Discovery.resolveReference ctx.labels t = .labelRef ⟨id, name, t.span, t.line⟩ := by
      simp only [Discovery.resolveReference, hname, hid]
    rw [htie, checked_operands_ref, Bindings.apply_dollar_unbound hname hself hunbound,
      checkOperand_visible hname hid]
    rfl
  | none =>
    have htie : Discovery.resolveReference ctx.labels t = .token t := by
      simp only [Discovery.resolveReference, hname, hid]
    rw [htie, checked_operands_word fun t' h => Bindings.apply_dollar_ne_len href hself h]

theorem dollar_argument_to_visible_label :
    Token.kind ⟨.word, "$x", Span.point 0, 1⟩ = .word ∧
      labelName? "$x" = some "x" ∧ Bindings.empty.find? "$x" = none ∧
      (LabelScope.find? ⟨[[("x", 0)]]⟩ "x" = none ∨ Bindings.empty.find? "x" = none) ∧
      arguments ⟨MacroTable.empty, Bindings.empty, ⟨[[("x", 0)]]⟩⟩
          [.leaf (.token ⟨.word, "$x", Span.point 0, 1⟩)] [] =
        (operands ⟨MacroTable.empty, Bindings.empty, ⟨[[("x", 0)]]⟩⟩
            [.leaf (Discovery.resolveReference ⟨[[("x", 0)]]⟩ ⟨.word, "$x", Span.point 0, 1⟩)] [] >>=
          List.mapM (checkOperand ⟨MacroTable.empty, Bindings.empty, ⟨[[("x", 0)]]⟩⟩)) :=
  ⟨rfl, by decide +kernel, rfl, .inr rfl,
    @dollar_argument_matches_operand ⟨MacroTable.empty, Bindings.empty, ⟨[[("x", 0)]]⟩⟩
      ⟨.word, "$x", Span.point 0, 1⟩ "x" rfl (by decide +kernel) rfl (.inr rfl)⟩

/-- A label `x` and a constant `x`: passed to a macro, `$x` is the constant's value 5 as a
pointer; written on the jump's line, it is the label, at index 1. -/
theorem constant_shadows_label_in_argument :
    (compile {} "NOP\nx:\nNOP\nASSIGN x 5\nmacro m(t) \x7b JMP t \x7d\nm($x)".toList).result.toOption.map
        (fun p => p.instructions.map fun i => (i.mnemonic, i.kind, i.value)) =
      some [("NOP", .none, 0), ("NOP", .none, 0), ("JMP", .pointer, 5)] ∧
    (compile {} "NOP\nx:\nNOP\nASSIGN x 5\nJMP $x".toList).result.toOption.map
        (fun p => p.instructions.map fun i => (i.mnemonic, i.kind, i.value)) =
      some [("NOP", .none, 0), ("NOP", .none, 0), ("JMP", .label, 1)] :=
  ⟨by decide +kernel, by decide +kernel⟩

end Expansion

end PagedAsm
