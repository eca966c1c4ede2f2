import PagedAsm.Proofs.Lexing.Tokenize
import PagedAsm.Proofs.Expansion.Steps

/-!
# Reported lines

Tokens, labels, nodes, items, instructions and diagnostics each carry a span of the source text
and a line. The two agree when the line is the line of the span's start (`PlacedAt`), which is
the line a report of a diagnostic prints (`Line.enclosing`).

Expansion moves words around: a constant, a parameter or a loop variable takes the place of the
word it stands for, and a label reference the place of its word. Nothing is ever given a place
of its own, so a run of nodes whose parts are placed, in order of their starts, stays so
(`RunPlaced`). An instruction's span covers its mnemonic and its operand and its line is the
mnemonic's: it is placed because the operand never starts before the mnemonic
(`Item.Placed`).

`Reported` and `Reports` say that a computation that may fail ends in agreement with the text:
with a placed diagnostic, or with a value that satisfies a predicate and, for an expansion, a
session whose warnings are placed. They are built up step by step (`Reports.bind`).
-/

namespace PagedAsm

/-- A place `(span, line)` in the text `src` whose line is the line of the span's start. -/
def PlacedAt (src : List Char) (span : Span) (line : Nat) : Prop := line = lineOf src span.start

theorem placedAt_iff_enclosing {src : List Char} {span : Span} {line : Nat} :
    PlacedAt src span line ↔ line = (Line.enclosing src span.start).number := by
  rw [PlacedAt, enclosing_number]

theorem PlacedAt.join {src : List Char} {a b : Span} {line : Nat} (h : PlacedAt src a line)
    (hle : a.start ≤ b.start) : PlacedAt src (a.join b) line := by
  rw [PlacedAt, Span.join_start, Nat.min_eq_left hle]
  exact h

theorem PlacedAt.congr {src : List Char} {span span' : Span} {line line' : Nat} (h : PlacedAt src span line)
    (hspan : span' = span) (hline : line' = line) : PlacedAt src span' line' := by
  rw [hspan, hline]
  exact h

/-- Nodes in order of their starts. -/
def Ordered (ns : List Node) : Prop := ns.Pairwise fun a b => a.span.start ≤ b.span.start

/-- A node whose leaves and groups are all placed, and whose groups keep their children in
order. -/
inductive Node.Placed (src : List Char) : Node → Prop
  | leaf {a : Atom} : PlacedAt src a.span a.line → Node.Placed src (.leaf a)
  | group {b : Bracket} {cs : List Node} {s : Span} {l : Nat} : PlacedAt src s l →
      (∀ c ∈ cs, Node.Placed src c) → Ordered cs → Node.Placed src (.group b cs s l)

/-- A run of placed nodes in order. -/
structure RunPlaced (src : List Char) (ns : List Node) : Prop where
  placed : ∀ n ∈ ns, n.Placed src
  ordered : Ordered ns

variable {src : List Char}

namespace Node.Placed

theorem placedAt {n : Node} (h : n.Placed src) : PlacedAt src n.span n.line := by
  cases h with
  | leaf ha => exact ha
  | group hs _ _ => exact hs

theorem children {b : Bracket} {cs : List Node} {s : Span} {l : Nat}
    (h : Node.Placed src (.group b cs s l)) : RunPlaced src cs := by
  cases h with
  | group _ hcs hord => exact ⟨hcs, hord⟩

end Node.Placed

namespace RunPlaced

theorem nil : RunPlaced src [] := ⟨by simp, List.Pairwise.nil⟩

theorem sublist {ns ms : List Node} (h : RunPlaced src ns) (hsub : ms.Sublist ns) :
    RunPlaced src ms :=
  ⟨fun n hn => h.placed n (hsub.subset hn), h.ordered.sublist hsub⟩

theorem tail {n : Node} {rest : List Node} (h : RunPlaced src (n :: rest)) : RunPlaced src rest :=
  h.sublist (List.sublist_cons_self n rest)

theorem head {n : Node} {rest : List Node} (h : RunPlaced src (n :: rest)) : n.Placed src :=
  h.placed n List.mem_cons_self

theorem le_of_mem {n m : Node} {rest : List Node} (h : RunPlaced src (n :: rest)) (hm : m ∈ rest) :
    n.span.start ≤ m.span.start :=
  List.rel_of_pairwise_cons h.ordered hm

end RunPlaced

/-! ### Maps that keep places -/

/-- A map of atoms that keeps the place of every atom. -/
def KeepsPlace (f : Atom → Atom) : Prop := ∀ a, (f a).span = a.span ∧ (f a).line = a.line

section KeepsPlace

variable {f : Atom → Atom} (hf : KeepsPlace f)
include hf

theorem span_mapLeaves : ∀ n : Node, (n.mapLeaves f).span = n.span
  | .leaf a => (hf a).1
  | .group _ _ _ _ => rfl

theorem Ordered.map {ns : List Node} (h : Ordered ns) : Ordered (ns.map (Tree.mapLeaves f)) := by
  unfold Ordered
  rw [List.pairwise_map]
  refine h.imp fun hle => ?_
  rw [span_mapLeaves hf, span_mapLeaves hf]
  exact hle

theorem Node.Placed.mapLeaves {n : Node} (h : n.Placed src) : Node.Placed src (n.mapLeaves f) := by
  induction h with
  | leaf ha =>
    refine .leaf ?_
    rw [PlacedAt, (hf _).1, (hf _).2]
    exact ha
  | group hs _ hord ih =>
    simp only [Tree.mapLeaves, Tree.mapForest_eq_map]
    refine .group hs (fun c hc => ?_) (Ordered.map hf hord)
    obtain ⟨c', hc', rfl⟩ := List.mem_map.1 hc
    exact ih c' hc'

theorem RunPlaced.map {ns : List Node} (h : RunPlaced src ns) :
    RunPlaced src (ns.map (Tree.mapLeaves f)) := by
  refine ⟨fun n hn => ?_, Ordered.map hf h.ordered⟩
  obtain ⟨m, hm, rfl⟩ := List.mem_map.1 hn
  exact Node.Placed.mapLeaves hf (h.placed m hm)

end KeepsPlace

namespace Bindings

theorem apply_place (b : Bindings) (t : Token) :
    (b.apply t).span = t.span ∧ (b.apply t).line = t.line := by
  unfold apply
  split
  · exact ⟨rfl, rfl⟩
  · split
    · exact ⟨rfl, rfl⟩
    · exact ⟨rfl, rfl⟩
    · split
      · split
        · split <;> exact ⟨rfl, rfl⟩
        · exact ⟨rfl, rfl⟩
        · exact ⟨rfl, rfl⟩
      · split <;> exact ⟨rfl, rfl⟩

theorem apply_token_place {b : Bindings} {t t' : Token} (h : b.apply t = .token t') :
    t'.span = t.span ∧ t'.line = t.line := by
  have hplace := b.apply_place t
  rw [h] at hplace
  exact hplace

theorem keepsPlace_rewrite (b : Bindings) :
    KeepsPlace fun
      | .token t => (b.apply t).toAtom
      | a => a := by
  intro a
  cases a with
  | token t => exact b.apply_place t
  | labelDef l => exact ⟨rfl, rfl⟩
  | labelRef l => exact ⟨rfl, rfl⟩

theorem runPlaced_rewrite (b : Bindings) {ns : List Node} (h : RunPlaced src ns) :
    RunPlaced src (ns.map b.rewrite) :=
  RunPlaced.map (keepsPlace_rewrite b) h

end Bindings

/-! ### Items, sessions and outcomes -/

/-- An item whose places agree with the text; an instruction's operand does not start before
its mnemonic. -/
def Item.Placed (src : List Char) : Item → Prop
  | .label l => PlacedAt src l.span l.line
  | .instruction m none => PlacedAt src m.span m.line
  | .instruction m (some o) =>
    PlacedAt src m.span m.line ∧ PlacedAt src o.span o.line ∧ m.span.start ≤ o.span.start

/-- A session whose warnings are placed. -/
def Session.Placed (src : List Char) (s : Session) : Prop :=
  ∀ d ∈ s.warnings.toList, PlacedAt src d.span d.line

variable {α β : Type}

/-- A result agrees with the text: a placed diagnostic, or a value satisfying `Q`. -/
def Reported (src : List Char) (Q : α → Prop) : Except Diagnostic α → Prop
  | .ok a => Q a
  | .error d => PlacedAt src d.span d.line

/-- From a session whose warnings are placed, `x` fails with a placed diagnostic, or gives a
value satisfying `Q` and leaves a session whose warnings are placed. -/
def Reports (src : List Char) (x : Expand α) (Q : α → Prop) : Prop :=
  ∀ s, s.Placed src → Reported src (fun a => Q a ∧ (Expand.exec x s).2.Placed src) (Expand.exec x s).1

namespace Reported

variable {Q R : α → Prop}

@[simp] theorem ok_iff {a : α} : Reported src Q (.ok a) ↔ Q a := Iff.rfl

@[simp] theorem error_iff {d : Diagnostic} :
    Reported src Q (.error d : Except Diagnostic α) ↔ PlacedAt src d.span d.line := Iff.rfl

theorem of_ok {e : Except Diagnostic α} (h : Reported src (fun _ => True) e)
    (hok : ∀ a, e = .ok a → Q a) : Reported src Q e := by
  cases e with
  | error d => exact h
  | ok a => exact hok a rfl

theorem and_ok {e : Except Diagnostic α} (h : Reported src Q e) (hok : ∀ a, e = .ok a → R a) :
    Reported src (fun a => Q a ∧ R a) e := by
  cases e with
  | error d => exact h
  | ok a => exact ⟨h, hok a rfl⟩

theorem mono {e : Except Diagnostic α} (h : Reported src Q e) (hQR : ∀ a, Q a → R a) :
    Reported src R e := by
  cases e with
  | error d => exact h
  | ok a => exact hQR a h

theorem bind {e : Except Diagnostic α} {f : α → Except Diagnostic β} {R : β → Prop}
    (h : Reported src Q e) (hf : ∀ a, Q a → Reported src R (f a)) : Reported src R (e >>= f) := by
  cases e with
  | error d => exact h
  | ok a => exact hf a h

end Reported

namespace Reports

open Expand

variable {Q R : α → Prop}

theorem mono {x : Expand α} (h : Reports src x Q) (hQR : ∀ a, Q a → R a) : Reports src x R :=
  fun s hs => (h s hs).mono fun a ha => ⟨hQR a ha.1, ha.2⟩

theorem bind {x : Expand α} {f : α → Expand β} {R : β → Prop} (hx : Reports src x Q)
    (hf : ∀ a, Q a → Reports src (f a) R) : Reports src (x >>= f) R := by
  intro s hs
  have h := hx s hs
  rw [exec_bind]
  rcases hxs : exec x s with ⟨d | a, s₁⟩ <;> rw [hxs] at h
  · exact h
  · exact hf a h.1 s₁ h.2

theorem ite_bind {c : Prop} [Decidable c] {x y : Expand α} {f : α → Expand β} {R : β → Prop}
    (hx : Reports src x Q) (hy : Reports src y Q) (hf : ∀ a, Q a → Reports src (f a) R) :
    Reports src (if c then x >>= f else y >>= f) R := by
  split
  · exact hx.bind hf
  · exact hy.bind hf

theorem optional_bind {c : Prop} [Decidable c] {x : Expand PUnit} {f : PUnit → Expand β}
    {R : β → Prop} (hx : Reports src x fun _ => True) (hf : Reports src (f ⟨⟩) R) :
    Reports src (if c then x >>= f else f ⟨⟩) R := by
  split
  · exact hx.bind fun _ _ => hf
  · exact hf

theorem pure {a : α} (h : Q a) : Reports src (Pure.pure a : Expand α) Q :=
  fun _ hs => ⟨h, hs⟩

theorem throw {d : Diagnostic} (h : PlacedAt src d.span d.line) :
    Reports src (MonadExcept.throw d : Expand α) Q :=
  fun _ _ => h

theorem throw_bind {d : Diagnostic} {f : α → Expand β} {R : β → Prop}
    (h : PlacedAt src d.span d.line) : Reports src (MonadExcept.throw d >>= f) R := by
  intro s _
  rw [exec_bind, exec_throw]
  exact h

theorem fail_bind {d : Diagnostic} {f : α → Expand β} {R : β → Prop}
    (h : PlacedAt src d.span d.line) : Reports src (Expansion.fail d >>= f) R :=
  throw_bind h

theorem fail {d : Diagnostic} (h : PlacedAt src d.span d.line) :
    Reports src (Expansion.fail d : Expand α) Q :=
  fun _ _ => h

theorem lift {e : Except Diagnostic α} (h : Reported src Q e) : Reports src (Expansion.lift e) Q := by
  intro s hs
  cases e with
  | error d => exact h
  | ok a => exact ⟨h, hs⟩

theorem get : Reports src (MonadState.get : Expand Session) fun s => s.Placed src :=
  fun _ hs => ⟨hs, hs⟩

theorem modify {f : Session → Session} (hf : ∀ s, (f s).warnings = s.warnings) :
    Reports src (modify f : Expand PUnit) fun _ => True := by
  intro s hs
  refine ⟨trivial, ?_⟩
  show (f s).Placed src
  intro d hd
  rw [hf] at hd
  exact hs d hd

theorem note (e : Event) : Reports src (Session.note e) fun _ => True :=
  modify fun _ => rfl

theorem warn {d : Diagnostic} (h : PlacedAt src d.span d.line) :
    Reports src (Session.warn d) fun _ => True := by
  intro s hs
  refine ⟨trivial, ?_⟩
  intro d' hd'
  simp only [Session.exec_warn, Array.toList_push, List.mem_append, List.mem_singleton] at hd'
  rcases hd' with hd' | rfl
  · exact hs d' hd'
  · exact h

theorem emit {site : Token} (h : PlacedAt src site.span site.line) (n : Nat) :
    Reports src (Session.emit site n) fun _ => True := by
  intro s hs
  unfold Session.emit
  simp only [exec_bind, exec_get, exec_set]
  by_cases hc : s.emitted + n > maxInstructions
  · simp only [hc, if_true, exec_throw]
    exact h
  · simp only [hc, if_false, exec_pure]
    exact ⟨trivial, hs⟩

theorem newLabel (name : String) : Reports src (Session.newLabel name) fun _ => True := by
  intro s hs
  simp only [Session.exec_newLabel]
  exact ⟨trivial, hs⟩

theorem forIn {γ : Type} (I : γ → Prop) {f : β → γ → Expand (ForInStep γ)} :
    ∀ {values : List β} {init : γ}, (∀ v ∈ values, ∀ a, I a → Reports src (f v a) fun r => I r.value) →
      I init → Reports src (ForIn.forIn values init f) I
  | [], init, _, hinit => by
    rw [List.forIn_nil]
    exact pure hinit
  | v :: vs, init, hstep, hinit => by
    rw [List.forIn_cons]
    refine bind (hstep v List.mem_cons_self init hinit) fun r hr => ?_
    cases r with
    | done b => exact pure hr
    | yield b => exact forIn I (fun w hw => hstep w (List.mem_cons_of_mem _ hw)) hr

end Reports

/-! ### Macros -/

/-- A macro whose body is a placed run, and every macro visible from it is placed. -/
inductive Macro.Placed (src : List Char) : Macro → Prop
  | intro {m : Macro} : RunPlaced src m.body → (∀ v ∈ m.visible, Macro.Placed src v) →
      Macro.Placed src m

/-- A table of placed macros. -/
def MacroTable.Placed (src : List Char) (t : MacroTable) : Prop := ∀ m ∈ t.macros, m.Placed src

namespace MacroTable

variable {t : MacroTable}

theorem empty_placed : empty.Placed src := by
  simp [Placed, empty]

theorem insert_placed (h : t.Placed src) {m : Macro} (hm : m.Placed src) : (t.insert m).1.Placed src := by
  intro m' hm'
  simp only [insert, List.mem_cons, List.mem_filter] at hm'
  rcases hm' with rfl | ⟨hm', -⟩
  · exact hm
  · exact h m' hm'

theorem find?_placed (h : t.Placed src) {name : String} {arity : Nat} {m : Macro}
    (hm : t.find? name arity = some m) : m.Placed src :=
  h m (List.mem_of_find?_eq_some hm)

theorem forBody_placed {m : Macro} (hm : m.Placed src) : (forBody m).Placed src := by
  cases hm with
  | intro hbody hvis =>
    have hvisible : MacroTable.Placed src ⟨m.visible⟩ := hvis
    exact insert_placed hvisible (.intro hbody hvis)

end MacroTable

theorem Macro.Placed.body {m : Macro} (h : m.Placed src) : RunPlaced src m.body := by
  cases h with
  | intro hbody _ => exact hbody

end PagedAsm
