import PagedAsm.Source.Line

/-!
# Finding the line of a position

`Line.enclosing` finds the line of a position by walking the text up to it, and `Line.linesOf`
splits the whole text at its newlines. Before the end of the text the two agree: the line found
is the one line of the split whose range holds the position, a newline counting with the line it
ends. At or past the end, the line found is the run after the last newline. That run is the last
line of the split, except when the text ends in a newline: then the run is empty, and the split
drops it.
-/

namespace PagedAsm

namespace Line

variable {p start pos n : Nat}

theorem start_le_of_mem_linesFrom {cs : List Char} {h : start ≤ pos} {l : Line}
    (hl : l ∈ linesFrom cs start pos n h) : start ≤ l.span.start := by
  induction cs generalizing start pos n with
  | nil =>
    rw [linesFrom] at hl
    split at hl
    · rw [List.mem_singleton] at hl
      subst hl
      exact Nat.le_refl _
    · cases hl
  | cons c cs ih =>
    rw [linesFrom] at hl
    split at hl
    · rcases List.mem_cons.1 hl with rfl | hl
      · exact Nat.le_refl _
      · have := ih hl
        omega
    · exact ih hl

theorem linesFrom_head {cs : List Char} (h : start ≤ pos) (hne : cs ≠ [] ∨ start < pos) :
    ∃ rest, linesFrom cs start pos n h = ⟨n, ⟨start, pos + lineLength cs, by omega⟩⟩ :: rest ∧
      ∀ l ∈ rest, pos + lineLength cs < l.span.start := by
  induction cs generalizing pos with
  | nil =>
    have hlt : start < pos := by simpa using hne
    refine ⟨[], ?_, by simp⟩
    simp [linesFrom, hlt, lineLength]
  | cons c cs ih =>
    by_cases hc : c = '\n'
    · subst hc
      refine ⟨linesFrom cs (pos + 1) (pos + 1) (n + 1) (Nat.le_refl _), ?_, ?_⟩
      · simp [linesFrom, lineLength]
      · intro l hl
        have := start_le_of_mem_linesFrom hl
        have h0 : lineLength ('\n' :: cs) = 0 := by simp [lineLength]
        omega
    · obtain ⟨rest, heq, hrest⟩ := ih (by omega : start ≤ pos + 1) (.inr (by omega))
      have hlen : lineLength (c :: cs) = lineLength cs + 1 := by simp [lineLength, hc]
      refine ⟨rest, ?_, ?_⟩
      · rw [linesFrom, if_neg hc, heq]
        simp only [List.cons.injEq, Line.mk.injEq, Span.mk.injEq, true_and, and_true]
        omega
      · intro l hl
        have := hrest l hl
        omega

theorem enclosingFrom_mem {cs : List Char} (h : start ≤ pos) (hp : pos ≤ p)
    (hlt : p < pos + cs.length) :
    enclosingFrom p cs start pos n h ∈ linesFrom cs start pos n h ∧
      ∀ l ∈ linesFrom cs start pos n h,
        (l.span.start ≤ p ∧ p ≤ l.span.stop ↔ l = enclosingFrom p cs start pos n h) := by
  induction cs generalizing start pos n with
  | nil =>
    simp only [List.length_nil, Nat.add_zero] at hlt
    omega
  | cons c cs ih =>
    have hlt' : p < pos + 1 + cs.length := by simp at hlt; omega
    by_cases hpos : pos = p
    · subst hpos
      obtain ⟨rest, heq, hrest⟩ := linesFrom_head (n := n) h (.inl (List.cons_ne_nil c cs))
      rw [heq, enclosingFrom, if_pos rfl]
      refine ⟨List.mem_cons_self .., fun l hl => ?_⟩
      rcases List.mem_cons.1 hl with rfl | hl
      · simp only [iff_true]
        omega
      · have hafter := hrest l hl
        constructor
        · intro hin
          omega
        · rintro rfl
          dsimp only at hafter
          omega
    · by_cases hc : c = '\n'
      · -- the line ending at `pos` lies before `p`
        obtain ⟨hmem, hiff⟩ := ih (n := n + 1) (Nat.le_refl (pos + 1)) (by omega) hlt'
        rw [linesFrom, if_pos hc, enclosingFrom, if_neg hpos, if_pos hc]
        refine ⟨List.mem_cons_of_mem _ hmem, fun l hl => ?_⟩
        rcases List.mem_cons.1 hl with rfl | hl
        · have hholds := (hiff _ hmem).2 rfl
          constructor
          · rintro ⟨-, hstop⟩
            dsimp only at hstop
            omega
          · intro hfound
            rw [← hfound] at hholds
            have hstop := hholds.2
            dsimp only at hstop
            omega
        · exact hiff l hl
      · rw [linesFrom, if_neg hc, enclosingFrom, if_neg hpos, if_neg hc]
        exact ih (by omega : start ≤ pos + 1) (by omega) hlt'

theorem enclosingFrom_past_end {cs : List Char} (h : start ≤ pos) (hp : pos + cs.length ≤ p) :
    (enclosingFrom p cs start pos n h).span.stop = pos + cs.length ∧
      ((enclosingFrom p cs start pos n h).span.start < pos + cs.length ↔
        (cs ≠ [] ∨ start < pos) ∧ cs.getLast? ≠ some '\n') := by
  induction cs generalizing start pos n with
  | nil => simp [enclosingFrom]
  | cons c cs ih =>
    have hpos : pos ≠ p := by simp at hp; omega
    have hp' : pos + 1 + cs.length ≤ p := by simp at hp; omega
    have hlen : pos + (c :: cs).length = pos + 1 + cs.length := by simp; omega
    have hlast :
        (c :: cs).getLast? = some '\n' ↔ (cs = [] ∧ c = '\n') ∨ cs.getLast? = some '\n' := by
      cases cs <;> simp [List.getLast?_cons_cons]
    by_cases hc : c = '\n'
    · rw [enclosingFrom, if_neg hpos, if_pos hc]
      obtain ⟨hstop, hstart⟩ := ih (n := n + 1) (Nat.le_refl (pos + 1)) hp'
      rw [hlen]
      refine ⟨hstop, ?_⟩
      rw [hstart]
      simp only [ne_eq, hlast]
      simp [hc]
    · rw [enclosingFrom, if_neg hpos, if_neg hc]
      obtain ⟨hstop, hstart⟩ := ih (n := n) (by omega : start ≤ pos + 1) hp'
      rw [hlen]
      refine ⟨hstop, ?_⟩
      rw [hstart]
      simp only [ne_eq, hlast]
      simp [hc, Nat.lt_succ_of_le h]

theorem linesFrom_past_end {cs : List Char} (h : start ≤ pos) (hp : pos + cs.length ≤ p) :
    ∃ ended, (enclosingFrom p cs start pos n h).number = n + ended.length ∧
      linesFrom cs start pos n h = ended ++
        if (enclosingFrom p cs start pos n h).span.start <
            (enclosingFrom p cs start pos n h).span.stop
        then [enclosingFrom p cs start pos n h] else [] := by
  induction cs generalizing start pos n with
  | nil =>
    refine ⟨[], rfl, ?_⟩
    rw [linesFrom]
    rfl
  | cons c cs ih =>
    have hpos : pos ≠ p := by simp at hp; omega
    have hp' : pos + 1 + cs.length ≤ p := by simp at hp; omega
    by_cases hc : c = '\n'
    · obtain ⟨ended, hnum, hlines⟩ := ih (n := n + 1) (Nat.le_refl (pos + 1)) hp'
      refine ⟨⟨n, ⟨start, pos, h⟩⟩ :: ended, ?_, ?_⟩
      · rw [enclosingFrom, if_neg hpos, if_pos hc, hnum]
        simp only [List.length_cons]
        omega
      · rw [linesFrom, if_pos hc, hlines, enclosingFrom, if_neg hpos, if_pos hc]
        rfl
    · obtain ⟨ended, hnum, hlines⟩ := ih (n := n) (by omega : start ≤ pos + 1) hp'
      refine ⟨ended, ?_, ?_⟩
      · rw [enclosingFrom, if_neg hpos, if_neg hc, hnum]
      · rw [linesFrom, if_neg hc, hlines, enclosingFrom, if_neg hpos, if_neg hc]

/-- Finding a line agrees with splitting the text into lines. Before the end of a non-empty text,
the line found for a position is the one line of the split whose range holds it, a newline
counted with the line it ends. At or past the end, it is the last line of the split, unless the
text ends in a newline: then it is the empty line after that newline, numbered one past the last
line of the split. -/
theorem enclosing_agrees_with_lines {text : List Char} (htext : text ≠ []) (p : Nat) :
    (p < text.length →
      enclosing text p ∈ linesOf text ∧
        ∀ l ∈ linesOf text,
          (l.span.start ≤ p ∧ p ≤ l.span.stop ↔ l = enclosing text p)) ∧
    (text.length ≤ p → text.getLast? ≠ some '\n' →
      (linesOf text).getLast? = some (enclosing text p)) ∧
    (text.length ≤ p → text.getLast? = some '\n' →
      enclosing text p = ⟨(linesOf text).length + 1, Span.point text.length⟩) := by
  refine ⟨fun hlt => enclosingFrom_mem (Nat.le_refl 0) (Nat.zero_le p) (by omega), ?_⟩
  by_cases hp : text.length ≤ p
  · obtain ⟨hstop, hstart⟩ : (enclosing text p).span.stop = text.length ∧
        ((enclosing text p).span.start < text.length ↔ text.getLast? ≠ some '\n') := by
      have := enclosingFrom_past_end (n := 1) (Nat.le_refl 0) (by omega : 0 + text.length ≤ p)
      simp only [Nat.zero_add, ne_eq, htext, not_false_eq_true, Nat.lt_irrefl, or_false,
        true_and] at this
      exact this
    obtain ⟨ended, hnum, hlines⟩ :
        ∃ ended : List Line, (enclosing text p).number = 1 + ended.length ∧
        linesOf text = ended ++ if (enclosing text p).span.start < (enclosing text p).span.stop
          then [enclosing text p] else [] :=
      linesFrom_past_end (n := 1) (Nat.le_refl 0) (by omega : 0 + text.length ≤ p)
    refine ⟨fun _ hlast => ?_, fun _ hlast => ?_⟩
    · rw [hlines, if_pos (hstop ▸ hstart.2 hlast)]
      simp
    · have hempty : ¬(enclosing text p).span.start < (enclosing text p).span.stop := by
        rw [hstop, hstart]
        simp [hlast]
      have hle := (enclosing text p).span.le
      rw [hlines, if_neg hempty]
      rcases hE : enclosing text p with ⟨num, s, e, hse⟩
      rw [hE] at hnum hstop hempty hle
      simp only at hnum hstop hempty hle
      simp only [List.append_nil, Line.mk.injEq, Span.point, Span.mk.injEq]
      omega
  · exact ⟨fun h => absurd h hp, fun h => absurd h hp⟩

/-- On the text `a⏎b`, a position past the end finds the last line, `b`. -/
theorem past_end_finds_last_line :
    ['a', '\n', 'b'] ≠ [] ∧
      (linesOf ['a', '\n', 'b']).getLast? = some (enclosing ['a', '\n', 'b'] 7) :=
  ⟨by decide, (enclosing_agrees_with_lines (by decide) 7).2.1 (by decide) (by decide)⟩

/-- On the text `a⏎`, the end of the text finds the empty line after the newline, which is not
the last line of the split, `a`. -/
theorem trailing_newline_finds_no_split_line :
    (linesOf ['a', '\n']).getLast? ≠ some (enclosing ['a', '\n'] 2) := by
  decide

end Line

end PagedAsm
