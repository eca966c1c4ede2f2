import PagedAsm.Assembly.Expansion

/-!
# Nested expansion is well founded

A run is expanded by a processor at some nesting depth: the processor gathers the run's macros
and labels, then expands its statements in turn. A macro call or a loop iteration expands its
body with a child processor one level deeper, and a processor already at the configured depth
makes none: it reports a recursion error at the call or loop instead. Macro bodies are not parts
of the run that calls them, and a macro may call itself, so these equations do not recurse on
the syntax. They recurse on the levels left below the configured depth, and within a level on
the statements left, each statement taking at least one node.

`Expansion.run` counts a budget of levels down instead of a depth up. With `run` at budget
`maxDepth - depth` every equation of the processors holds (`run_processes`), and nothing else
satisfies them (`processes_eq_run`): the equations determine, at every depth up to the
configured one, a total expansion of every run, which is `run`.
-/

namespace PagedAsm

namespace Expansion

/-- What a processor does with a run, expanding nested runs with `descend`: gather the run's
macros, then its labels, then expand its statements. -/
def scope (config : Config) (descend : Descend) (ctx : Context) (nodes : List Node) :
    Expand (List Item) := do
  let (macros, nodes) ← Discovery.macros config.set ctx.macros nodes []
  let (labels, nodes) ← Discovery.labels ctx.labels nodes
  statements config descend { ctx with macros := macros, labels := labels } nodes

/-- Nested runs refused: a recursion error at the site of the call or loop. -/
def refuseNested (config : Config) : Descend :=
  fun site _ _ => fail ((Problem.depthExceeded config.maxDepth).atToken site)

/-- The nested runs of a processor at `depth`: a child processor one level deeper, unless the
depth has reached the configured one. -/
def nested (config : Config) (process : Nat → Context → List Node → Expand (List Item))
    (depth : Nat) : Descend :=
  if config.maxDepth ≤ depth then refuseNested config
  else fun _ c ns => process (depth + 1) c ns

/-- `process` meets the processors' equations at every depth up to the configured one. -/
def Processes (config : Config) (process : Nat → Context → List Node → Expand (List Item)) :
    Prop :=
  ∀ depth, depth ≤ config.maxDepth → ∀ ctx nodes,
    process depth ctx nodes = scope config (nested config process depth) ctx nodes

variable {config : Config}

theorem run_zero (ctx : Context) (nodes : List Node) :
    run config 0 ctx nodes = scope config (refuseNested config) ctx nodes := by
  rw [run]; rfl

theorem run_succ (b : Nat) (ctx : Context) (nodes : List Node) :
    run config (b + 1) ctx nodes = scope config (fun _ c ns => run config b c ns) ctx nodes := by
  rw [run]; rfl

theorem nested_of_le {process : Nat → Context → List Node → Expand (List Item)} {depth : Nat}
    (h : config.maxDepth ≤ depth) : nested config process depth = refuseNested config :=
  if_pos h

theorem nested_of_lt {process : Nat → Context → List Node → Expand (List Item)} {depth : Nat}
    (h : depth < config.maxDepth) :
    nested config process depth = fun _ c ns => process (depth + 1) c ns :=
  if_neg (Nat.not_le.2 h)

/-- `run`, with the depth counted up from the top, meets the processors' equations. -/
theorem run_processes : Processes config fun depth => run config (config.maxDepth - depth) := by
  intro depth _ ctx nodes
  dsimp only
  rcases Nat.lt_or_ge depth config.maxDepth with hlt | hge
  · have hb : config.maxDepth - depth = (config.maxDepth - (depth + 1)) + 1 := by omega
    rw [hb, run_succ, nested_of_lt hlt]
  · have h0 : config.maxDepth - depth = 0 := by omega
    rw [h0, run_zero, nested_of_le hge]

/-- The processors' equations have one solution: whatever meets them is `run` with the levels
left as budget, at every depth up to the configured one. -/
theorem processes_eq_run {process : Nat → Context → List Node → Expand (List Item)}
    (h : Processes config process) (depth : Nat) (hdepth : depth ≤ config.maxDepth) :
    process depth = run config (config.maxDepth - depth) := by
  -- induction on the levels left below the configured depth, from the deepest level up
  induction hk : config.maxDepth - depth generalizing depth with
  | zero =>
    funext ctx nodes
    rw [h depth hdepth, nested_of_le (by omega), run_zero]
  | succ k ih =>
    have hchild : process (depth + 1) = run config k := by
      rw [ih (depth + 1) (by omega) (by omega)]
    funext ctx nodes
    rw [h depth hdepth, nested_of_lt (by omega), run_succ, hchild]

/-- Expansion is well founded at every configured depth: `run`, at the budget the depth leaves,
satisfies the equations of the processors, and it is their only solution. In particular the
processor of the whole text, at depth `0`, is `run config config.maxDepth`. -/
theorem expansion_depth_well_founded (config : Config) :
    Processes config (fun depth => run config (config.maxDepth - depth)) ∧
      ∀ process, Processes config process →
        ∀ depth, depth ≤ config.maxDepth → process depth = run config (config.maxDepth - depth) :=
  ⟨run_processes, fun _ h => processes_eq_run h⟩

end Expansion

end PagedAsm
