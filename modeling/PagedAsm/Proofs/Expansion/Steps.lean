import PagedAsm.Assembly.Expansion

/-!
# Running expansion computations

An `Expand` computation runs on a session and ends with a value or a diagnostic, and the session
as it was then (`exec`). These are the equations of its building blocks, for reading a
successful run back step by step (`bind_ok`), and the facts that only `Session.newLabel` makes
labels.
-/

namespace PagedAsm

namespace Expand

variable {α β : Type} {s s' : Session}

/-- Run an expansion computation on a session: its outcome and the session after it. -/
def exec (x : Expand α) (s : Session) : Except Diagnostic α × Session := x.run.run s

theorem exec_bind (x : Expand α) (f : α → Expand β) (s : Session) :
    exec (x >>= f) s = match exec x s with
      | (.ok a, s₁) => exec (f a) s₁
      | (.error e, s₁) => (.error e, s₁) := by
  simp only [exec, ExceptT.run_bind]
  show (StateT.run (x.run >>= _) s) = _
  rw [StateT.run_bind]
  rcases x.run.run s with ⟨_ | a, s₁⟩ <;> rfl

/-- A run of `x >>= f` that succeeds ran `x` to a value and then `f` of it. -/
theorem bind_ok {x : Expand α} {f : α → Expand β} {b : β}
    (h : exec (x >>= f) s = (.ok b, s')) :
    ∃ a s₁, exec x s = (.ok a, s₁) ∧ exec (f a) s₁ = (.ok b, s') := by
  rw [exec_bind] at h
  rcases hx : exec x s with ⟨e | a, s₁⟩ <;> rw [hx] at h
  · cases h
  · exact ⟨a, s₁, rfl, h⟩

@[simp] theorem exec_pure (a : α) (s : Session) : exec (pure a : Expand α) s = (.ok a, s) := rfl

@[simp] theorem exec_throw (d : Diagnostic) (s : Session) :
    exec (throw d : Expand α) s = (.error d, s) := rfl

@[simp] theorem exec_fail (d : Diagnostic) (s : Session) :
    exec (Expansion.fail d : Expand α) s = (.error d, s) := rfl

@[simp] theorem exec_lift (e : Except Diagnostic α) (s : Session) :
    exec (Expansion.lift e) s = (e, s) := by
  cases e <;> rfl

@[simp] theorem exec_get (s : Session) : exec (get : Expand Session) s = (.ok s, s) := rfl

@[simp] theorem exec_set (s₁ s : Session) : exec (set s₁ : Expand PUnit) s = (.ok ⟨⟩, s₁) :=
  rfl

@[simp] theorem exec_modify (f : Session → Session) (s : Session) :
    exec (modify f : Expand PUnit) s = (.ok ⟨⟩, f s) := rfl

theorem pure_ok {a b : α} (h : exec (pure a : Expand α) s = (.ok b, s')) : a = b ∧ s = s' := by
  simpa using h

theorem fail_ok {d : Diagnostic} {b : α} (h : exec (Expansion.fail d : Expand α) s = (.ok b, s')) :
    False := by
  simp at h

theorem fail_bind_ok {d : Diagnostic} {f : α → Expand β} {b : β}
    (h : exec (Expansion.fail d >>= f) s = (.ok b, s')) : False := by
  obtain ⟨_, _, h₁, -⟩ := bind_ok h
  exact fail_ok h₁

theorem throw_ok {d : Diagnostic} {b : α} (h : exec (throw d : Expand α) s = (.ok b, s')) :
    False := by
  simp at h

theorem lift_ok {e : Except Diagnostic α} {b : α} (h : exec (Expansion.lift e) s = (.ok b, s')) :
    e = .ok b ∧ s = s' := by
  simpa using h

theorem forIn_inv {γ β : Type} (Inv : Session → γ → Prop) {f : β → γ → Expand (ForInStep γ)} :
    ∀ {values : List β} {acc res : γ} {s s' : Session},
      (∀ v ∈ values, ∀ (a : γ) (r : ForInStep γ) (s₁ s₂ : Session), Inv s₁ a →
        exec (f v a) s₁ = (.ok r, s₂) → Inv s₂ r.value) →
      Inv s acc → exec (forIn values acc f) s = (.ok res, s') → Inv s' res
  | [], acc, res, s, s', _, hinv, h => by
    rw [List.forIn_nil] at h
    obtain ⟨rfl, rfl⟩ := pure_ok h
    exact hinv
  | v :: vs, acc, res, s, s', hstep, hinv, h => by
    rw [List.forIn_cons] at h
    obtain ⟨r, s₁, h₁, h₂⟩ := bind_ok h
    have hr := hstep v List.mem_cons_self acc r s s₁ hinv h₁
    cases r with
    | done b =>
      obtain ⟨rfl, rfl⟩ := pure_ok h₂
      exact hr
    | yield b =>
      exact forIn_inv Inv (fun w hw => hstep w (List.mem_cons_of_mem _ hw)) hr h₂

/-- Whenever `x` succeeds, it leaves the labels as they were and gives a value satisfying `P`. -/
def KeepsLabels (x : Expand α) (P : α → Prop) : Prop :=
  ∀ ⦃s : Session⦄ ⦃a : α⦄ ⦃s' : Session⦄, exec x s = (.ok a, s') →
    s'.labelNames = s.labelNames ∧ P a

theorem KeepsLabels.bind {x : Expand α} {f : α → Expand β} {P : β → Prop}
    (hx : KeepsLabels x fun _ => True) (hf : ∀ a, KeepsLabels (f a) P) :
    KeepsLabels (x >>= f) P := by
  intro s b s' h
  obtain ⟨a, s₁, h₁, h₂⟩ := bind_ok h
  obtain ⟨hs', hb⟩ := hf a h₂
  exact ⟨hs'.trans (hx h₁).1, hb⟩

theorem keepsLabels_pure {P : α → Prop} {a : α} (h : P a) : KeepsLabels (pure a : Expand α) P := by
  intro s b s' h'
  obtain ⟨rfl, rfl⟩ := pure_ok h'
  exact ⟨rfl, h⟩

theorem keepsLabels_fail {P : α → Prop} (d : Diagnostic) :
    KeepsLabels (Expansion.fail d : Expand α) P :=
  fun _ _ _ h => (fail_ok h).elim

theorem keepsLabels_lift (e : Except Diagnostic α) : KeepsLabels (Expansion.lift e) fun _ => True := by
  intro s b s' h
  obtain ⟨-, rfl⟩ := lift_ok h
  exact ⟨rfl, trivial⟩

theorem keepsLabels_get : KeepsLabels (get : Expand Session) fun _ => True := by
  intro s b s' h
  obtain ⟨-, rfl⟩ : s = b ∧ s = s' := by simpa using h
  exact ⟨rfl, trivial⟩

theorem keepsLabels_modify {f : Session → Session} (hf : ∀ s, (f s).labelNames = s.labelNames) :
    KeepsLabels (modify f : Expand PUnit) fun _ => True := by
  intro s b s' h
  obtain ⟨-, rfl⟩ : True ∧ f s = s' := by simpa using h
  exact ⟨hf s, trivial⟩

end Expand

open Expand

namespace Session

@[simp] theorem exec_note (e : Event) (s : Session) :
    exec (note e) s = (.ok (), { s with journal := s.journal.push e }) := rfl

@[simp] theorem exec_warn (d : Diagnostic) (s : Session) :
    exec (warn d) s =
      (.ok (), { s with warnings := s.warnings.push d, journal := s.journal.push (.warned d) }) :=
  rfl

@[simp] theorem exec_newLabel (name : String) (s : Session) :
    exec (newLabel name) s =
      (.ok s.labelNames.size, { s with labelNames := s.labelNames.push name }) :=
  rfl

theorem warn_then_ok {α : Type} {d : Diagnostic} {x : Expand α} {a : α} {s s' : Session}
    (h : exec (warn d >>= fun _ => x) s = (.ok a, s')) :
    ∃ s₁ : Session, s₁.labelNames = s.labelNames ∧ exec x s₁ = (.ok a, s') := by
  obtain ⟨u, s₁, h₁, h₂⟩ := bind_ok h
  obtain ⟨-, rfl⟩ : True ∧ _ = s₁ := by simpa using h₁
  refine ⟨_, ?_, h₂⟩
  rfl

theorem warnIf_ok {α : Type} {c : Bool} {d : Diagnostic} {x : Expand α} {a : α}
    {s s' : Session} (h : exec (if c = true then warn d >>= (fun _ => x) else x) s = (.ok a, s')) :
    ∃ s₁ : Session, s₁.labelNames = s.labelNames ∧ exec x s₁ = (.ok a, s') := by
  split at h
  · exact warn_then_ok h
  · exact ⟨s, rfl, h⟩

theorem throwIf_ok {α β : Type} {c : Bool} {d : Diagnostic} {x : Expand α} {a : α}
    {s s' : Session} (h : exec (if c = true then throw d >>= (fun (_ : β) => x) else x) s = (.ok a, s')) :
    c = false ∧ exec x s = (.ok a, s') := by
  split at h
  · obtain ⟨u, s₁, h₁, -⟩ := bind_ok h
    exact (throw_ok h₁).elim
  · rename_i hc
    exact ⟨by simpa using hc, h⟩

theorem keepsLabels_warn (d : Diagnostic) : KeepsLabels (warn d) fun _ => True :=
  keepsLabels_modify fun _ => rfl

theorem emit_labels {site : Token} {n : Nat} {s s' : Session} {u : Unit}
    (h : exec (emit site n) s = (.ok u, s')) : s'.labelNames = s.labelNames := by
  unfold emit at h
  obtain ⟨s₁, s₂, h₁, h₂⟩ := bind_ok h
  obtain ⟨rfl, rfl⟩ : s = s₁ ∧ s = s₂ := by simpa using h₁
  obtain ⟨u', s₃, h₃, h₄⟩ := bind_ok h₂
  obtain ⟨-, rfl⟩ : True ∧ _ = s₃ := by simpa using h₃
  split at h₄
  · exact (throw_ok h₄).elim
  · obtain ⟨-, rfl⟩ := pure_ok h₄
    rfl

theorem keepsLabels_emit (site : Token) (n : Nat) : KeepsLabels (emit site n) fun _ => True :=
  fun _ _ _ h => ⟨emit_labels h, trivial⟩

end Session

end PagedAsm
