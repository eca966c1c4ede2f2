import PagedAsm.Assembly.Session

/-!
# Labels made in a range

Expansion numbers labels in the order it makes them. The parts of an expansion refer to labels
by number, and a part is sound for a range `[lo, hi)` when every label it refers to was made in
that range: the references in nodes, the labels of constants and macro arguments, the labels in
scope, and, through every macro visible, the bodies of macros. A run of statements reads no label
definition inside a group, so its nodes are sound only without one; label definitions stand at
the top of a run, after its labels are gathered (`TopSound`).

Every part stays sound as the range grows (`*.mono`), and each way expansion builds a part from
sound parts gives a sound part.
-/

namespace PagedAsm

/-- Label `id` was made while the label count went from `lo` to `hi`. -/
def Made (lo hi id : Nat) : Prop := lo ≤ id ∧ id < hi

theorem Made.mono {lo hi hi' id : Nat} (h : Made lo hi id) (hle : hi ≤ hi') : Made lo hi' id :=
  ⟨h.1, by have := h.2; omega⟩

namespace Tree

variable {α β : Type}

mutual

/-- Every leaf of a tree satisfies `P`. -/
def Every (P : α → Prop) : Tree α → Prop
  | .leaf a => P a
  | .group _ cs _ _ => EveryIn P cs

/-- Every leaf of every tree of a run satisfies `P`. -/
def EveryIn (P : α → Prop) : List (Tree α) → Prop
  | [] => True
  | c :: cs => Every P c ∧ EveryIn P cs

end

theorem everyIn_iff {P : α → Prop} : ∀ {cs : List (Tree α)}, EveryIn P cs ↔ ∀ c ∈ cs, Every P c
  | [] => by simp [EveryIn]
  | c :: cs => by simp [EveryIn, everyIn_iff]

@[simp] theorem every_leaf {P : α → Prop} {a : α} : Every P (.leaf a) ↔ P a := by
  simp [Every]

@[simp] theorem every_group {P : α → Prop} {b : Bracket} {cs : List (Tree α)} {s : Span}
    {l : Nat} : Every P (.group b cs s l) ↔ ∀ c ∈ cs, Every P c := by
  simp [Every, everyIn_iff]

mutual

theorem Every.imp {P : α → Prop} {Q : β → Prop} {f : α → β} (h : ∀ a, P a → Q (f a)) :
    ∀ t : Tree α, Every P t → Every Q (t.mapLeaves f)
  | .leaf a, ht => by
    simp only [every_leaf, mapLeaves] at ht ⊢
    exact h a ht
  | .group _ cs _ _, ht => by
    simp only [mapLeaves, Every] at ht ⊢
    exact EveryIn.imp h cs ht

theorem EveryIn.imp {P : α → Prop} {Q : β → Prop} {f : α → β} (h : ∀ a, P a → Q (f a)) :
    ∀ cs : List (Tree α), EveryIn P cs → EveryIn Q (mapForest f cs)
  | [], _ => by simp [mapForest, EveryIn]
  | c :: cs, hcs => by
    simp only [EveryIn, mapForest] at hcs ⊢
    exact ⟨Every.imp h c hcs.1, EveryIn.imp h cs hcs.2⟩

end

mutual

theorem every_mapLeaves {Q : β → Prop} {f : α → β} (h : ∀ a, Q (f a)) :
    ∀ t : Tree α, Every Q (t.mapLeaves f)
  | .leaf a => by
    simp only [mapLeaves, every_leaf]
    exact h a
  | .group _ cs _ _ => by
    simp only [mapLeaves, Every]
    exact everyIn_mapForest h cs

theorem everyIn_mapForest {Q : β → Prop} {f : α → β} (h : ∀ a, Q (f a)) :
    ∀ cs : List (Tree α), EveryIn Q (mapForest f cs)
  | [] => by simp [mapForest, EveryIn]
  | c :: cs => by
    simp only [EveryIn, mapForest]
    exact ⟨every_mapLeaves h c, everyIn_mapForest h cs⟩

end

mutual

theorem Every.mono {P Q : α → Prop} (h : ∀ a, P a → Q a) : ∀ {t : Tree α}, Every P t → Every Q t
  | .leaf a, ht => by
    simp only [every_leaf] at ht ⊢
    exact h a ht
  | .group _ cs _ _, ht => by
    simp only [Every] at ht ⊢
    exact EveryIn.mono h ht

theorem EveryIn.mono {P Q : α → Prop} (h : ∀ a, P a → Q a) :
    ∀ {cs : List (Tree α)}, EveryIn P cs → EveryIn Q cs
  | [], _ => trivial
  | _ :: _, hcs => by
    simp only [EveryIn] at hcs ⊢
    exact ⟨Every.mono h hcs.1, EveryIn.mono h hcs.2⟩

end

end Tree

namespace Atom

/-- An atom of a run whose labels are not gathered yet: a token, or a reference to a label made
in range. -/
def Sound (lo hi : Nat) : Atom → Prop
  | .token _ => True
  | .labelRef l => Made lo hi l.id
  | .labelDef _ => False

theorem Sound.mono {lo hi hi' : Nat} (hle : hi ≤ hi') : ∀ {a : Atom}, a.Sound lo hi → a.Sound lo hi'
  | .token _, _ => trivial
  | .labelRef _, h => Made.mono h hle
  | .labelDef _, h => h

end Atom

/-- A node of a run whose labels are not gathered yet. -/
abbrev Node.Sound (lo hi : Nat) (n : Node) : Prop := Tree.Every (Atom.Sound lo hi) n

theorem Node.Sound.not_def {lo hi : Nat} {n : Node} (h : n.Sound lo hi) :
    ∀ l, n ≠ .leaf (.labelDef l) := by
  rintro l rfl
  exact Tree.every_leaf.1 h

theorem Node.Sound.mono {lo hi hi' : Nat} (hle : hi ≤ hi') {n : Node} (h : n.Sound lo hi) :
    n.Sound lo hi' :=
  Tree.Every.mono (fun _ => Atom.Sound.mono hle) h

/-- A node at the top of a run whose labels are gathered: the definition of a label made in
range, or a sound node. -/
def TopSound (lo hi : Nat) (n : Node) : Prop :=
  (∃ l, n = .leaf (.labelDef l) ∧ Made lo hi l.id) ∨ n.Sound lo hi

theorem TopSound.sound {lo hi : Nat} {n : Node} (h : TopSound lo hi n)
    (hn : ∀ l, n ≠ .leaf (.labelDef l)) : n.Sound lo hi := by
  rcases h with ⟨l, rfl, -⟩ | h
  · exact absurd rfl (hn l)
  · exact h

theorem TopSound.mono {lo hi hi' : Nat} (hle : hi ≤ hi') {n : Node} :
    TopSound lo hi n → TopSound lo hi' n
  | .inl ⟨l, hn, hl⟩ => .inl ⟨l, hn, hl.mono hle⟩
  | .inr h => .inr (h.mono hle)

namespace Operand

/-- An operand that refers, if at all, to a label made in range. -/
def Sound (lo hi : Nat) : Operand → Prop
  | .token _ => True
  | .label l => Made lo hi l.id

theorem Sound.mono {lo hi hi' : Nat} (hle : hi ≤ hi') : ∀ {o : Operand}, o.Sound lo hi → o.Sound lo hi'
  | .token _, _ => trivial
  | .label _, h => Made.mono h hle

theorem toAtom_sound {lo hi : Nat} : ∀ {o : Operand}, o.Sound lo hi → o.toAtom.Sound lo hi
  | .token _, _ => trivial
  | .label _, h => h

end Operand

namespace Bindings

/-- Bindings whose values refer only to labels made in range. -/
def Sound (lo hi : Nat) (b : Bindings) : Prop := ∀ e ∈ b.entries, e.2.Sound lo hi

variable {lo hi : Nat} {b : Bindings}

theorem Sound.mono {hi' : Nat} (hle : hi ≤ hi') (h : b.Sound lo hi) : b.Sound lo hi' :=
  fun e he => (h e he).mono hle

theorem empty_sound : empty.Sound lo hi := by
  simp [Sound, empty]

theorem find?_sound (h : b.Sound lo hi) {name : String} {v : Operand}
    (hv : b.find? name = some v) : v.Sound lo hi := by
  simp only [find?, Option.map_eq_some_iff] at hv
  obtain ⟨e, he, rfl⟩ := hv
  exact h e (List.mem_of_find?_eq_some he)

theorem insert_sound (h : b.Sound lo hi) {name : String} {v : Operand} (hv : v.Sound lo hi) :
    (b.insert name v).Sound lo hi := by
  intro e he
  simp only [insert, List.mem_cons, List.mem_filter] at he
  rcases he with rfl | ⟨he, -⟩
  · exact hv
  · exact h e he

theorem ofList_sound {pairs : List (String × Operand)} (h : ∀ p ∈ pairs, p.2.Sound lo hi) :
    (ofList pairs).Sound lo hi := by
  unfold ofList
  have hb : empty.Sound lo hi := empty_sound
  generalize empty = b at hb ⊢
  induction pairs generalizing b with
  | nil => exact hb
  | cons p ps ih =>
    exact ih (fun q hq => h q (List.mem_cons_of_mem _ hq)) _
      (insert_sound hb (h p List.mem_cons_self))

theorem apply_sound (h : b.Sound lo hi) (t : Token) : (b.apply t).Sound lo hi := by
  unfold apply
  split
  · trivial
  · split
    · trivial
    · rename_i l hl
      have hsound := find?_sound h hl
      exact hsound
    · split
      · split
        · split <;> trivial
        · rename_i l hl
          have hsound := find?_sound h hl
          exact hsound
        · trivial
      · split <;> trivial

theorem rewrite_sound (h : b.Sound lo hi) {n : Node} (hn : n.Sound lo hi) :
    (b.rewrite n).Sound lo hi := by
  unfold rewrite
  refine Tree.Every.imp (fun a ha => ?_) n hn
  cases a with
  | token t => exact Operand.toAtom_sound (apply_sound h t)
  | labelRef l => exact ha
  | labelDef l => exact ha.elim

end Bindings

namespace LabelScope

/-- Labels in scope, all made in range. -/
def Sound (lo hi : Nat) (sc : LabelScope) : Prop :=
  ∀ level ∈ sc.levels, ∀ e ∈ level, Made lo hi e.2

variable {lo hi : Nat} {sc : LabelScope}

theorem Sound.mono {hi' : Nat} (hle : hi ≤ hi') (h : sc.Sound lo hi) : sc.Sound lo hi' :=
  fun level hl e he => (h level hl e he).mono hle

theorem find?_sound (h : sc.Sound lo hi) {name : String} {id : Nat} (hid : sc.find? name = some id) :
    Made lo hi id := by
  obtain ⟨level, hl, hf⟩ := List.exists_of_findSome?_eq_some hid
  obtain ⟨e, he, rfl⟩ := Option.map_eq_some_iff.1 hf
  exact h level hl e (List.mem_of_find?_eq_some he)

theorem define_sound (h : sc.Sound lo hi) {name : String} {id : Nat} (hid : Made lo hi id) :
    (sc.define name id).1.Sound lo hi := by
  unfold define
  split
  · intro level hl e he
    simp_all
  · rename_i level outer heq
    intro level' hl e he
    simp only [List.mem_cons] at hl
    rcases hl with rfl | hl
    · simp only [List.mem_cons, List.mem_filter] at he
      rcases he with rfl | ⟨he, -⟩
      · exact hid
      · exact h level (by simp [heq]) e he
    · exact h level' (by simp [heq, hl]) e he

theorem enter_sound (h : sc.Sound lo hi) : sc.enter.Sound lo hi := by
  intro level hl e he
  simp only [enter, List.mem_cons] at hl
  rcases hl with rfl | hl
  · simp at he
  · exact h level hl e he

end LabelScope

/-- A macro whose body, and the body of every macro visible from it, refers only to labels made
in range and defines none. -/
inductive Macro.Sound (lo hi : Nat) : Macro → Prop
  | intro {m : Macro} : (∀ n ∈ m.body, n.Sound lo hi) → (∀ v ∈ m.visible, Macro.Sound lo hi v) →
      Macro.Sound lo hi m

theorem Macro.Sound.mono {lo hi hi' : Nat} (hle : hi ≤ hi') {m : Macro} (h : m.Sound lo hi) :
    m.Sound lo hi' := by
  induction h with
  | intro hbody _ ih => exact .intro (fun n hn => (hbody n hn).mono hle) ih

theorem Macro.Sound.body {lo hi : Nat} {m : Macro} (h : m.Sound lo hi) : ∀ n ∈ m.body, n.Sound lo hi := by
  cases h with
  | intro hbody _ => exact hbody

namespace MacroTable

/-- A table of sound macros. -/
def Sound (lo hi : Nat) (t : MacroTable) : Prop := ∀ m ∈ t.macros, m.Sound lo hi

variable {lo hi : Nat} {t : MacroTable}

theorem Sound.mono {hi' : Nat} (hle : hi ≤ hi') (h : t.Sound lo hi) : t.Sound lo hi' :=
  fun m hm => (h m hm).mono hle

theorem insert_sound (h : t.Sound lo hi) {m : Macro} (hm : m.Sound lo hi) :
    (t.insert m).1.Sound lo hi := by
  intro m' hm'
  simp only [insert, List.mem_cons, List.mem_filter] at hm'
  rcases hm' with rfl | ⟨hm', -⟩
  · exact hm
  · exact h m' hm'

theorem find?_sound (h : t.Sound lo hi) {name : String} {arity : Nat} {m : Macro}
    (hm : t.find? name arity = some m) : m.Sound lo hi :=
  h m (List.mem_of_find?_eq_some hm)

theorem forBody_sound {m : Macro} (hm : m.Sound lo hi) : (forBody m).Sound lo hi := by
  cases hm with
  | intro hbody hvis =>
    have hvisible : MacroTable.Sound lo hi ⟨m.visible⟩ := hvis
    exact insert_sound hvisible (.intro hbody hvis)

end MacroTable

/-- A context whose labels, constants and macros refer only to labels made in range. -/
structure Context.Sound (lo hi : Nat) (ctx : Context) : Prop where
  labels : ctx.labels.Sound lo hi
  constants : ctx.constants.Sound lo hi
  macros : ctx.macros.Sound lo hi

namespace Context

variable {lo hi : Nat} {ctx : Context}

theorem Sound.mono {hi' : Nat} (hle : hi ≤ hi') (h : ctx.Sound lo hi) : ctx.Sound lo hi' :=
  ⟨h.labels.mono hle, h.constants.mono hle, h.macros.mono hle⟩

theorem top_sound : Context.top.Sound lo hi := by
  refine ⟨?_, Bindings.empty_sound, ?_⟩
  · intro level hl e he
    simp_all [top]
  · intro m hm
    simp [top, MacroTable.empty] at hm

theorem child_sound (h : ctx.Sound lo hi) {macros : MacroTable} (hm : macros.Sound lo hi) :
    (ctx.child macros).Sound lo hi :=
  ⟨LabelScope.enter_sound h.labels, h.constants, hm⟩

end Context

end PagedAsm
