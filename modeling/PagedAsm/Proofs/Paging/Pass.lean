import PagedAsm.Assembly.Paging

/-!
# One pass of the page fix-up

The code a pass works on is a run of blocks: an instruction as it was written, with the page
switch the fix-up put before it, if any. A switch stands only before an instruction whose
address the fix-up pages, is synthetic, is of the kind that instruction needs (`CRP` before a
jump, `CCP` before anything else) and selects one of the 256 pages.

One step of a pass does one of five things (`step_cases`): it follows a user switch, passes an
instruction without an address, passes an instruction whose page is already selected, inserts a
switch, or updates the switch right before the instruction. From this, a pass keeps the shape of
the code (`pass_blocks`): every block keeps its instruction and gains or updates at most its own
switch, and a label that starts a block still starts it. A pass that reports no change has left
code and labels alone and has found every address in the page its tracker selects
(`pass_unchanged`).
-/

namespace PagedAsm

namespace Paging

/-- The switch that pages an instruction's address: `CRP` for a jump, `CCP` otherwise. -/
def switchFor (set : InstructionSet) (p : Pending) : String :=
  if set.isJump p.mnemonic then "CRP" else "CCP"

/-- The address the fix-up reads from an instruction, with label `id` at `index id`: the label
of a jump, or a pointer. Page switches have none. -/
def addressOf (set : InstructionSet) (index : Nat → Int) (p : Pending) : Option Int :=
  if p.mnemonic = "CRP" ∨ p.mnemonic = "CCP" then none
  else match p.argument with
    | .label id => if set.isJump p.mnemonic then some (index id) else none
    | .pointer v => some v
    | _ => none

/-- Whether the fix-up pages the address of an instruction. -/
def Addressed (set : InstructionSet) (p : Pending) : Prop :=
  (addressOf set (fun _ => 0) p).isSome

theorem addressOf_isSome (set : InstructionSet) (index : Nat → Int) (p : Pending) :
    (addressOf set index p).isSome = (addressOf set (fun _ => 0) p).isSome := by
  unfold addressOf
  split
  · rfl
  · split
    · split <;> rfl
    · rfl
    · rfl

/-- An instruction as it was written, with the switch the fix-up put before it, if any. -/
structure Block where
  switch : Option Pending
  insn : Pending

/-- The instructions of a block, in order. -/
def Block.toList : Block → List Pending
  | ⟨none, x⟩ => [x]
  | ⟨some s, x⟩ => [s, x]

/-- A switch the fix-up made for `x`: synthetic, of the kind `x` needs, selecting a page. -/
def IsSwitchFor (set : InstructionSet) (x s : Pending) : Prop :=
  s.synthetic = true ∧ s.mnemonic = switchFor set x ∧
    ∃ page : Int, s.argument = .integer page ∧ 0 ≤ page ∧ page ≤ maxPage

/-- A block as the fix-up leaves it: a written instruction, with a switch made for it only if
the fix-up pages its address. -/
def Block.WF (set : InstructionSet) (b : Block) : Prop :=
  b.insn.synthetic = false ∧ ∀ s ∈ b.switch, IsSwitchFor set b.insn s ∧ Addressed set b.insn

/-- The code of a run of blocks. -/
def flatten (bs : List Block) : List Pending := bs.flatMap Block.toList

@[simp] theorem flatten_nil : flatten [] = [] := rfl

@[simp] theorem flatten_append (bs cs : List Block) :
    flatten (bs ++ cs) = flatten bs ++ flatten cs := by
  simp [flatten]

@[simp] theorem flatten_singleton (b : Block) : flatten [b] = b.toList := by
  simp [flatten]

/-- Where block `k` starts in the code of `bs`. -/
def start (bs : List Block) (k : Nat) : Nat := (flatten (bs.take k)).length

theorem start_append_of_le {bs cs : List Block} {k : Nat} (hk : k ≤ bs.length) :
    start (bs ++ cs) k = start bs k := by
  simp [start, List.take_append_of_le_length hk]

theorem start_length (bs : List Block) : start bs bs.length = (flatten bs).length := by
  simp [start]

theorem start_le_length (bs : List Block) (k : Nat) : start bs k ≤ (flatten bs).length := by
  have hsplit : flatten bs = flatten (bs.take k) ++ flatten (bs.drop k) := by
    rw [← flatten_append, List.take_append_drop]
  rw [start, hsplit, List.length_append]
  omega

theorem start_lt_of_lt {bs : List Block} {k : Nat} (hk : k < bs.length) :
    start bs k < (flatten bs).length := by
  have hsplit : flatten bs = flatten (bs.take k) ++ flatten (bs.drop k) := by
    rw [← flatten_append, List.take_append_drop]
  obtain ⟨b, rest, hdrop⟩ : ∃ b rest, bs.drop k = b :: rest :=
    List.exists_cons_of_length_pos (by simp; omega)
  have hb : 0 < b.toList.length := by rcases b with ⟨_ | _, _⟩ <;> simp [Block.toList]
  rw [hsplit, hdrop, start, List.length_append]
  simp [flatten]
  omega

theorem last_not_synthetic {set : InstructionSet} {bs : List Block}
    (hwf : ∀ b ∈ bs, b.WF set) : ∀ prev ∈ (flatten bs).getLast?, prev.synthetic = false := by
  induction bs with
  | nil => simp
  | cons b bs ih =>
    intro prev hprev
    have hb := (hwf b (by simp)).1
    have hrest := ih (fun c hc => hwf c (by simp [hc]))
    simp only [flatten, List.flatMap_cons, List.getLast?_append] at hprev
    cases hlast : (List.flatMap Block.toList bs).getLast? with
    | some q =>
      rw [hlast] at hprev
      simp only [Option.some_or, Option.mem_def, Option.some.injEq] at hprev
      subst hprev
      exact hrest q hlast
    | none =>
      rw [hlast] at hprev
      rcases b with ⟨_ | s, x⟩ <;> simp_all [Block.toList]

/-- The tracker a pass compares an instruction's page with. -/
def Pass.tracker (set : InstructionSet) (st : Pass) (p : Pending) : Int :=
  if set.isJump p.mnemonic then st.rom else st.cache

/-- The state of a pass once it has noted how many switches stand before the next instruction. -/
def Pass.noted (st : Pass) : Pass := { st with before := st.before.push st.inserted }

@[simp] theorem Pass.noted_out (st : Pass) : st.noted.out = st.out := rfl
@[simp] theorem Pass.noted_rom (st : Pass) : st.noted.rom = st.rom := rfl
@[simp] theorem Pass.noted_cache (st : Pass) : st.noted.cache = st.cache := rfl
@[simp] theorem Pass.noted_inserted (st : Pass) : st.noted.inserted = st.inserted := rfl
@[simp] theorem Pass.noted_changed (st : Pass) : st.noted.changed = st.changed := rfl
@[simp] theorem Pass.noted_before (st : Pass) :
    st.noted.before = st.before.push st.inserted := rfl

/-- The synthetic switch selecting `page` for `p`, at the place of `p`. -/
def switchAt (set : InstructionSet) (p : Pending) (page : Int) : Pending :=
  ⟨switchFor set p, .integer page, p.line, p.span, true⟩

/-- The state after paging `p` to `page` by a new switch or by updating the one before it. -/
def Pass.switched (set : InstructionSet) (st : Pass) (p : Pending) (page : Int) : Pass :=
  let st := match st.out.back? with
    | some prev =>
      if prev.synthetic ∧ prev.mnemonic = switchFor set p then
        { st with out := st.out.set! (st.out.size - 1) { prev with argument := .integer page } }
      else { st with out := st.out.push (switchAt set p page), inserted := st.inserted + 1 }
    | none => { st with out := st.out.push (switchAt set p page), inserted := st.inserted + 1 }
  let st := if set.isJump p.mnemonic then { st with rom := page } else { st with cache := page }
  { st with out := st.out.push p, changed := true }

variable {set : InstructionSet} {placed : Placement} {st st' : Pass} {p : Pending}

theorem step_user_rom (h : p.mnemonic = "CRP") :
    Pass.step set placed st p =
      .ok { st.noted with out := st.out.push p, rom := selectedPage p.argument } := by
  simp [Pass.step, Pass.noted, h]

theorem step_user_cache (h : p.mnemonic = "CCP") :
    Pass.step set placed st p =
      .ok { st.noted with out := st.out.push p, cache := selectedPage p.argument } := by
  simp [Pass.step, Pass.noted, h]

theorem step_of_not_switch (h1 : p.mnemonic ≠ "CRP") (h2 : p.mnemonic ≠ "CCP") :
    Pass.step set placed st p =
      match addressOf set (st.noted.labelIndex placed) p with
      | none => .ok { st.noted with out := st.out.push p }
      | some addr =>
        if addr < 0 ∨ addr / 256 > maxPage then .error ⟨.addressTooLarge addr, p.span, p.line⟩
        else if addr / 256 = Pass.tracker set st p then .ok { st.noted with out := st.out.push p }
        else .ok (Pass.switched set st.noted p (addr / 256)) := by
  rcases p with ⟨m, arg, line, span, syn⟩
  simp only at h1 h2
  unfold Pass.step addressOf
  simp only [h1, h2, or_self, if_false]
  cases arg <;> rfl

theorem addressed_not_switch (h : Addressed set p) : p.mnemonic ≠ "CRP" ∧ p.mnemonic ≠ "CCP" := by
  unfold Addressed addressOf at h
  constructor <;> intro hm <;> simp [hm] at h

theorem addressOf_of_addressed (h : Addressed set p) (index : Nat → Int) :
    ∃ addr, addressOf set index p = some addr := by
  rw [Addressed, ← addressOf_isSome set index] at h
  exact Option.isSome_iff_exists.mp h

theorem switchFor_cases (set : InstructionSet) (p : Pending) :
    (set.isJump p.mnemonic = true ∧ switchFor set p = "CRP") ∨
      (set.isJump p.mnemonic = false ∧ switchFor set p = "CCP") := by
  unfold switchFor
  cases set.isJump p.mnemonic <;> simp

theorem step_switchFor (placed : Placement) (st : Pass) {s : Pending} {page : Int} (hm : s.mnemonic = switchFor set p)
    (harg : s.argument = .integer page) :
    ∃ st₁, Pass.step set placed st s = .ok st₁ ∧ st₁.out = st.out.push s ∧
      st₁.before = st.before.push st.inserted ∧ st₁.inserted = st.inserted ∧
      Pass.tracker set st₁ p = page := by
  rcases switchFor_cases set p with ⟨hj, hs⟩ | ⟨hj, hs⟩
  · refine ⟨_, step_user_rom (hm.trans hs), rfl, rfl, rfl, ?_⟩
    simp [Pass.tracker, hj, selectedPage, harg]
  · have hstep : Pass.step set placed st s =
        .ok { st.noted with out := st.out.push s, cache := selectedPage s.argument } := by
      simp [Pass.step, Pass.noted, hm, hs]
    refine ⟨_, hstep, rfl, rfl, rfl, ?_⟩
    simp [Pass.tracker, hj, selectedPage, harg]

theorem switched_insert (page : Int)
    (h : ∀ prev ∈ st.out.back?, ¬(prev.synthetic = true ∧ prev.mnemonic = switchFor set p)) :
    (Pass.switched set st p page).out = (st.out.push (switchAt set p page)).push p ∧
      (Pass.switched set st p page).inserted = st.inserted + 1 ∧
      (Pass.switched set st p page).before = st.before := by
  unfold Pass.switched
  cases hb : st.out.back? with
  | none => cases set.isJump p.mnemonic <;> simp
  | some prev =>
    have hp := h prev (by simp [hb])
    cases set.isJump p.mnemonic <;> simp [hp]

theorem switched_update (page : Int) {prev : Pending} (hb : st.out.back? = some prev)
    (hs : prev.synthetic = true ∧ prev.mnemonic = switchFor set p) :
    (Pass.switched set st p page).out =
        (st.out.set! (st.out.size - 1) { prev with argument := .integer page }).push p ∧
      (Pass.switched set st p page).inserted = st.inserted ∧
      (Pass.switched set st p page).before = st.before := by
  unfold Pass.switched
  rw [hb]
  cases set.isJump p.mnemonic <;> simp [hs]

theorem page_bounds {addr : Int} (h : ¬(addr < 0 ∨ addr / 256 > maxPage)) :
    0 ≤ addr / 256 ∧ addr / 256 ≤ maxPage := by
  simp only [maxPage] at h ⊢
  omega

theorem step_alone {x : Pending} (hx : x.synthetic = false)
    (hclosed : ∀ prev ∈ st.out.back?, prev.synthetic = false)
    (h : Pass.step set placed st x = .ok st') :
    ∃ b' : Block, b'.insn = x ∧ b'.WF set ∧ st'.out.toList = st.out.toList ++ b'.toList ∧
      st'.before.toList = st.before.toList ++ [st.inserted] ∧
      st'.inserted + 1 = st.inserted + b'.toList.length := by
  have alone : (⟨none, x⟩ : Block).WF set := ⟨hx, by simp⟩
  by_cases h1 : x.mnemonic = "CRP"
  · rw [step_user_rom h1] at h
    cases h
    exact ⟨⟨none, x⟩, rfl, alone, by simp [Block.toList], by simp [Pass.noted], rfl⟩
  by_cases h2 : x.mnemonic = "CCP"
  · rw [step_user_cache h2] at h
    cases h
    exact ⟨⟨none, x⟩, rfl, alone, by simp [Block.toList], by simp [Pass.noted], rfl⟩
  rw [step_of_not_switch h1 h2] at h
  cases ha : addressOf set (st.noted.labelIndex placed) x with
  | none =>
    simp only [ha, Except.ok.injEq] at h
    subst h
    exact ⟨⟨none, x⟩, rfl, alone, by simp [Block.toList], by simp [Pass.noted], rfl⟩
  | some addr =>
    simp only [ha] at h
    split at h
    · cases h
    rename_i hrange
    split at h
    · cases h
      exact ⟨⟨none, x⟩, rfl, alone, by simp [Block.toList], by simp [Pass.noted], rfl⟩
    · cases h
      have hnone : ∀ prev ∈ st.noted.out.back?,
          ¬(prev.synthetic = true ∧ prev.mnemonic = switchFor set x) := by
        intro prev hprev hs
        simp [hclosed prev hprev] at hs
      obtain ⟨hout, hins, hbefore⟩ := switched_insert (addr / 256) hnone
      have haddr : Addressed set x := by
        rw [Addressed, ← addressOf_isSome set (st.noted.labelIndex placed), ha]
        rfl
      refine ⟨⟨some (switchAt set x (addr / 256)), x⟩, rfl, ⟨hx, ?_⟩, ?_, ?_, ?_⟩
      · intro s hs
        cases hs
        exact ⟨⟨rfl, rfl, addr / 256, rfl, page_bounds hrange⟩, haddr⟩
      · rw [hout]
        simp [Pass.noted, Block.toList]
      · rw [hbefore]
        simp [Pass.noted]
      · rw [hins]
        simp [Pass.noted, Block.toList]

theorem step_pair {s x : Pending} (hwf : (⟨some s, x⟩ : Block).WF set)
    (h : [s, x].foldlM (Pass.step set placed) st = .ok st') :
    ∃ b' : Block, b'.insn = x ∧ b'.WF set ∧ st'.out.toList = st.out.toList ++ b'.toList ∧
      st'.before.toList = st.before.toList ++ [st.inserted, st.inserted] ∧
      st'.inserted + 2 = st.inserted + b'.toList.length := by
  obtain ⟨hx, hsw⟩ := hwf
  obtain ⟨⟨hsyn, hm, page, harg, hpage⟩, haddr⟩ := hsw s rfl
  obtain ⟨st₁, h₁, hout₁, hbefore₁, hins₁, -⟩ :=
    step_switchFor placed st hm harg
  simp only [List.foldlM_cons, List.foldlM_nil, h₁, bind_pure] at h
  change Pass.step set placed st₁ x = .ok st' at h
  obtain ⟨hn1, hn2⟩ := addressed_not_switch haddr
  obtain ⟨addr, ha⟩ := addressOf_of_addressed haddr (st₁.noted.labelIndex placed)
  rw [step_of_not_switch hn1 hn2, ha] at h
  simp only at h
  split at h
  · cases h
  rename_i hrange
  split at h
  · cases h
    refine ⟨⟨some s, x⟩, rfl, ⟨hx, fun s' hs' => ?_⟩, ?_, ?_, ?_⟩
    · cases hs'
      exact ⟨⟨hsyn, hm, page, harg, hpage⟩, haddr⟩
    · simp [hout₁, Block.toList]
    · simp [Pass.noted, hbefore₁, hins₁]
    · simp [Pass.noted, hins₁, Block.toList]
  · cases h
    have hback : st₁.noted.out.back? = some s := by simp [Pass.noted, hout₁]
    obtain ⟨hout, hins, hbefore⟩ :=
      switched_update (addr / 256) hback ⟨hsyn, hm⟩
    refine ⟨⟨some { s with argument := .integer (addr / 256) }, x⟩, rfl, ⟨hx, fun s' hs' => ?_⟩,
      ?_, ?_, ?_⟩
    · cases hs'
      exact ⟨⟨hsyn, hm, addr / 256, rfl, page_bounds hrange⟩, haddr⟩
    · rw [hout]
      simp [Pass.noted, hout₁, Block.toList]
    · rw [hbefore]
      simp [Pass.noted, hbefore₁, hins₁]
    · rw [hins]
      simp [Pass.noted, hins₁, Block.toList]

theorem block_step {b : Block} (hwf : b.WF set)
    (hclosed : ∀ prev ∈ st.out.back?, prev.synthetic = false)
    (h : b.toList.foldlM (Pass.step set placed) st = .ok st') :
    ∃ b' : Block, b'.insn = b.insn ∧ b'.WF set ∧
      st'.out.toList = st.out.toList ++ b'.toList ∧
      st'.before.toList = st.before.toList ++ List.replicate b.toList.length st.inserted ∧
      st'.inserted + b.toList.length = st.inserted + b'.toList.length := by
  rcases b with ⟨_ | s, x⟩
  · simp only [Block.toList, List.foldlM_cons, List.foldlM_nil, bind_pure] at h
    exact step_alone hwf.1 hclosed h
  · exact step_pair hwf h

theorem bind_eq_ok {ε α β : Type} {x : Except ε α} {f : α → Except ε β} {b : β}
    (h : x >>= f = .ok b) : ∃ a, x = .ok a ∧ f a = .ok b := by
  cases x with
  | error e => cases h
  | ok a => exact ⟨a, rfl, h⟩

/-- How far a pass has come: the blocks `pre` it has read became `pre'`, and each label at
the start of a read block moves to the start of the new one. -/
structure PassInv (set : InstructionSet) (pre pre' : List Block) (st : Pass) : Prop where
  out : st.out.toList = flatten pre'
  insns : pre'.map Block.insn = pre.map Block.insn
  wf : ∀ b ∈ pre', b.WF set
  before_size : st.before.size = (flatten pre).length
  inserted : (flatten pre).length + st.inserted = (flatten pre').length
  starts : ∀ k ≤ pre.length, start pre k + st.before.getD (start pre k) st.inserted = start pre' k

theorem passInv_start : PassInv set [] [] {} :=
  ⟨rfl, rfl, by simp, rfl, rfl, by intro k hk; simp_all [start]⟩

theorem getD_append_left {a b : Array Nat} {m : List Nat} (h : b.toList = a.toList ++ m)
    {i : Nat} (hi : i < a.size) (d e : Nat) : b.getD i d = a.getD i e := by
  have hb : b[i]? = a[i]? := by
    rw [← Array.getElem?_toList, h, List.getElem?_append_left (by simpa using hi),
      Array.getElem?_toList]
  simp [hb, Array.getElem?_eq_getElem hi]

theorem getD_append_right {a b : Array Nat} {x : Nat} {m : List Nat}
    (h : b.toList = a.toList ++ x :: m) (d : Nat) : b.getD a.size d = x := by
  have hb : b[a.size]? = some x := by
    rw [← Array.getElem?_toList, h, List.getElem?_append_right (by simp)]
    simp
  simp [hb]

theorem passInv_block {pre pre' : List Block} {b : Block} (hinv : PassInv set pre pre' st)
    (hwf : b.WF set) (h : b.toList.foldlM (Pass.step set placed) st = .ok st') :
    ∃ b', PassInv set (pre ++ [b]) (pre' ++ [b']) st' := by
  have hclosed : ∀ prev ∈ st.out.back?, prev.synthetic = false := by
    rw [← Array.getLast?_toList, hinv.out]
    exact last_not_synthetic hinv.wf
  obtain ⟨b', hins, hwf', hout, hbefore, hcount⟩ := block_step hwf hclosed h
  have hlen : pre'.length = pre.length := by
    simpa using congrArg List.length hinv.insns
  have hsize : st'.before.size = (flatten (pre ++ [b])).length := by
    rw [← Array.length_toList, hbefore]
    simp [hinv.before_size]
  have hb : 0 < b.toList.length := by rcases b with ⟨_ | _, _⟩ <;> simp [Block.toList]
  refine ⟨b', ⟨?_, ?_, ?_, hsize, ?_, ?_⟩⟩
  · rw [hout, hinv.out]
    simp
  · simp [hinv.insns, hins]
  · intro c hc
    simp only [List.mem_append, List.mem_singleton] at hc
    rcases hc with hc | rfl
    · exact hinv.wf c hc
    · exact hwf'
  · have := hinv.inserted
    simp only [flatten_append, flatten_singleton, List.length_append]
    omega
  · intro k hk
    simp only [List.length_append, List.length_singleton] at hk
    rcases Nat.lt_or_ge k (pre.length + 1) with hk' | hk'
    · have hkpre : k ≤ pre.length := by omega
      rw [start_append_of_le hkpre, start_append_of_le (by omega), ← hinv.starts k hkpre]
      congr 1
      rcases Nat.lt_or_ge k pre.length with hlt | hge
      · have hi : start pre k < st.before.size := by
          rw [hinv.before_size]
          exact start_lt_of_lt hlt
        exact getD_append_left hbefore hi _ _
      · have hk : k = pre.length := by omega
        subst hk
        have hfront : st'.before.toList =
            st.before.toList ++ st.inserted :: List.replicate (b.toList.length - 1) st.inserted := by
          rw [hbefore, ← List.replicate_succ, Nat.sub_add_cancel hb]
        rw [start_length, ← hinv.before_size, getD_append_right hfront]
        simp
    · have hk : k = pre.length + 1 := by omega
      subst hk
      have h1 : start (pre ++ [b]) (pre.length + 1) = (flatten (pre ++ [b])).length := by
        simpa using start_length (pre ++ [b])
      have h2 : start (pre' ++ [b']) (pre.length + 1) = (flatten (pre' ++ [b'])).length := by
        simpa [hlen] using start_length (pre' ++ [b'])
      rw [h1, h2, ← hsize]
      have hget : st'.before.getD st'.before.size st'.inserted = st'.inserted := by simp
      rw [hget]
      have := hinv.inserted
      simp only [flatten_append, flatten_singleton, List.length_append] at hsize ⊢
      omega

theorem fold_blocks {bs : List Block} (hwf : ∀ b ∈ bs, b.WF set) :
    ∀ {pre pre' : List Block} {st st' : Pass}, PassInv set pre pre' st →
      (flatten bs).foldlM (Pass.step set placed) st = .ok st' →
      ∃ bs', PassInv set (pre ++ bs) (pre' ++ bs') st' := by
  induction bs with
  | nil =>
    intro pre pre' st st' hinv h
    cases h
    exact ⟨[], by simpa using hinv⟩
  | cons b bs ih =>
    intro pre pre' st st' hinv h
    simp only [flatten, List.flatMap_cons, List.foldlM_append] at h
    obtain ⟨st₁, h₁, h₂⟩ := bind_eq_ok h
    obtain ⟨b', hinv₁⟩ := passInv_block hinv (hwf b (by simp)) h₁
    obtain ⟨bs', hinv₂⟩ := ih (fun c hc => hwf c (by simp [hc])) hinv₁ h₂
    exact ⟨b' :: bs', by simpa using hinv₂⟩

/-- A pass over well-formed code keeps it well formed, keeps its written instructions, and
moves a label that starts a block to the start of the same block. -/
theorem pass_blocks {bs : List Block} {code' : List Pending} {placed' : Placement}
    {changed : Bool} (hwf : ∀ b ∈ bs, b.WF set)
    (h : pass set placed (flatten bs) = .ok (code', placed', changed)) :
    ∃ bs', code' = flatten bs' ∧ bs'.map Block.insn = bs.map Block.insn ∧
      (∀ b ∈ bs', b.WF set) ∧
      (∀ (id k : Nat), k ≤ bs.length → placed[id]? = some (some (start bs k)) →
        placed'[id]? = some (some (start bs' k))) ∧
      ∀ (id j' : Nat), placed'[id]? = some (some j') → ∃ j, placed[id]? = some (some j) := by
  unfold pass at h
  obtain ⟨st, hfold, hret⟩ := bind_eq_ok h
  cases hret
  obtain ⟨bs', hinv⟩ := fold_blocks hwf passInv_start hfold
  simp only [List.nil_append] at hinv
  refine ⟨bs', hinv.out, hinv.insns, hinv.wf, ?_, ?_⟩
  · intro id k hk hplaced
    have hstart := hinv.starts k hk
    simp only [Array.getD_eq_getD_getElem?] at hstart
    simp [hplaced, hstart]
  · intro id j' hmoved
    simp only [Array.getElem?_map] at hmoved
    cases hid : placed[id]? with
    | none => simp [hid] at hmoved
    | some o =>
      cases o with
      | none => simp [hid] at hmoved
      | some j => exact ⟨j, rfl⟩

/-! ### A pass that changes nothing -/

/-- The index of a label as the finished code reads it: its place, or 0 when it has none. -/
def labelAt (placed : Placement) (id : Nat) : Int := ((placed.getD id none).getD 0 : Nat)

/-- Scanning code with the page trackers at `rom` and `cache`, where a page switch sets its
tracker to the page it selects (-1 when that is not known), every address the fix-up pages lies
in 64 KiB and in the page its tracker holds. Labels are at `index`. -/
def Tracked (set : InstructionSet) (index : Nat → Int) : Int → Int → List Pending → Prop
  | _, _, [] => True
  | rom, cache, p :: rest =>
    if p.mnemonic = "CRP" then Tracked set index (selectedPage p.argument) cache rest
    else if p.mnemonic = "CCP" then Tracked set index rom (selectedPage p.argument) rest
    else
      (∀ addr ∈ addressOf set index p, 0 ≤ addr ∧ addr / 256 ≤ maxPage ∧
        addr / 256 = if set.isJump p.mnemonic then rom else cache) ∧
      Tracked set index rom cache rest

theorem switched_changed {page : Int} : (Pass.switched set st p page).changed = true := by
  unfold Pass.switched
  split <;> (try split) <;> cases set.isJump p.mnemonic <;> rfl

theorem zeros_push {b : Array Nat} {k : Nat} (h : ∀ x ∈ b.toList, x = 0) (hk : k = 0) :
    ∀ x ∈ (b.push k).toList, x = 0 := by
  intro x hx
  rw [Array.toList_push, List.mem_append, List.mem_singleton] at hx
  rcases hx with hx | rfl
  · exact h x hx
  · exact hk

theorem before_getD_zero (hins : st.inserted = 0) (hzero : ∀ x ∈ st.before.toList, x = 0)
    (j : Nat) : st.before.getD j st.inserted = 0 := by
  rw [hins, Array.getD_eq_getD_getElem?]
  cases hj : st.before[j]? with
  | none => rfl
  | some y =>
    rw [← Array.getElem?_toList] at hj
    exact hzero y (List.mem_of_getElem? hj)

theorem labelIndex_unmoved (hins : st.inserted = 0) (hzero : ∀ x ∈ st.before.toList, x = 0) :
    st.noted.labelIndex placed = labelAt placed := by
  have hzero' : ∀ x ∈ st.noted.before.toList, x = 0 := zeros_push hzero hins
  funext id
  unfold Pass.labelIndex labelAt
  cases placed.getD id none with
  | none => rfl
  | some j =>
    have hget : st.noted.before.getD j st.noted.inserted = 0 :=
      before_getD_zero (show st.noted.inserted = 0 from hins) hzero' j
    rw [Pass.noted_before, Pass.noted_inserted, Array.getD_eq_getD_getElem?] at hget
    simp [hget]

theorem step_unchanged (h : Pass.step set placed st p = .ok st') (hc : st'.changed = false)
    (hins : st.inserted = 0) (hzero : ∀ x ∈ st.before.toList, x = 0) :
    st'.out = st.out.push p ∧ st'.inserted = 0 ∧ st'.before = st.before.push 0 ∧
      (∀ rest, Tracked set (labelAt placed) st'.rom st'.cache rest →
        Tracked set (labelAt placed) st.rom st.cache (p :: rest)) := by
  by_cases h1 : p.mnemonic = "CRP"
  · rw [step_user_rom h1] at h
    cases h
    exact ⟨rfl, hins, by simp [Pass.noted, hins], fun rest hr => by simpa [Tracked, h1] using hr⟩
  by_cases h2 : p.mnemonic = "CCP"
  · rw [step_user_cache h2] at h
    cases h
    exact ⟨rfl, hins, by simp [Pass.noted, hins], fun rest hr => by simpa [Tracked, h2] using hr⟩
  rw [step_of_not_switch h1 h2, labelIndex_unmoved hins hzero] at h
  cases ha : addressOf set (labelAt placed) p with
  | none =>
    simp only [ha, Except.ok.injEq] at h
    subst h
    refine ⟨rfl, hins, by simp [Pass.noted, hins], fun rest hr => ?_⟩
    simpa [Tracked, h1, h2, ha] using hr
  | some addr =>
    simp only [ha] at h
    split at h
    · cases h
    rename_i hrange
    split at h
    · cases h
      rename_i hpage
      refine ⟨rfl, hins, by simp [Pass.noted, hins], fun rest hr => ?_⟩
      have hb := page_bounds hrange
      simp only [Tracked, h1, h2, if_false, ha, Option.mem_def, Option.some.injEq,
        forall_eq']
      exact ⟨⟨by omega, hb.2, hpage⟩, hr⟩
    · cases h
      simp [switched_changed] at hc

theorem step_changed (h : Pass.step set placed st p = .ok st') (hc : st.changed = true) :
    st'.changed = true := by
  by_cases h1 : p.mnemonic = "CRP"
  · rw [step_user_rom h1] at h
    cases h
    exact hc
  by_cases h2 : p.mnemonic = "CCP"
  · rw [step_user_cache h2] at h
    cases h
    exact hc
  rw [step_of_not_switch h1 h2] at h
  split at h
  · cases h
    exact hc
  · split at h
    · cases h
    split at h
    · cases h
      exact hc
    · cases h
      exact switched_changed

theorem fold_changed : ∀ {code : List Pending} {st st' : Pass},
    code.foldlM (Pass.step set placed) st = .ok st' → st.changed = true → st'.changed = true
  | [], _, _, h, hc => by cases h; exact hc
  | p :: rest, st, st', h, hc => by
    simp only [List.foldlM_cons] at h
    obtain ⟨st₁, h₁, h₂⟩ := bind_eq_ok h
    exact fold_changed h₂ (step_changed h₁ hc)

theorem fold_unchanged : ∀ {code : List Pending} {st st' : Pass}, st.inserted = 0 →
    (∀ x ∈ st.before.toList, x = 0) → code.foldlM (Pass.step set placed) st = .ok st' →
    st'.changed = false →
    st'.out.toList = st.out.toList ++ code ∧ st'.inserted = 0 ∧
      (∀ x ∈ st'.before.toList, x = 0) ∧ Tracked set (labelAt placed) st.rom st.cache code
  | [], _, _, hins, hzero, h, _ => by
    cases h
    exact ⟨by simp, hins, hzero, trivial⟩
  | p :: rest, st, st', hins, hzero, h, hc => by
    simp only [List.foldlM_cons] at h
    obtain ⟨st₁, h₁, h₂⟩ := bind_eq_ok h
    have hc₁ : st₁.changed = false := by
      cases hst : st₁.changed
      · rfl
      · simp [fold_changed h₂ hst] at hc
    obtain ⟨hout₁, hins₁, hbefore₁, htrack⟩ := step_unchanged h₁ hc₁ hins hzero
    have hzero₁ : ∀ x ∈ st₁.before.toList, x = 0 := by
      rw [hbefore₁]
      exact zeros_push hzero rfl
    obtain ⟨hout, hins', hzero', hrest⟩ := fold_unchanged hins₁ hzero₁ h₂ hc
    refine ⟨?_, hins', hzero', htrack rest hrest⟩
    rw [hout, hout₁]
    simp

theorem pass_of_fold {code : List Pending} (hfold : code.foldlM (Pass.step set placed) {} = .ok st)
    (hins : st.inserted = 0) (hzero : ∀ x ∈ st.before.toList, x = 0) :
    pass set placed code = .ok (st.out.toList, placed, st.changed) := by
  unfold pass
  rw [hfold]
  simp only [bind, Except.bind, pure, Except.pure, Except.ok.injEq, Prod.mk.injEq, true_and,
    and_true]
  apply Array.map_id''
  intro x
  cases x with
  | none => rfl
  | some j => simp [before_getD_zero hins hzero j]

theorem fold_of_pass {code code' : List Pending} {placed' : Placement} {changed : Bool}
    (h : pass set placed code = .ok (code', placed', changed)) :
    ∃ st, code.foldlM (Pass.step set placed) {} = .ok st ∧ code' = st.out.toList ∧
      changed = st.changed := by
  unfold pass at h
  obtain ⟨st, hfold, hret⟩ := bind_eq_ok h
  simp only [pure, Except.pure, Except.ok.injEq, Prod.mk.injEq] at hret
  exact ⟨st, hfold, hret.1.symm, hret.2.2.symm⟩

/-- A pass that reports no change leaves code and labels as they were, and every address it
pages already lies in the page its tracker selects. -/
theorem pass_unchanged {code code' : List Pending} {placed' : Placement}
    (h : pass set placed code = .ok (code', placed', false)) :
    code' = code ∧ placed' = placed ∧ Tracked set (labelAt placed) 0 0 code := by
  obtain ⟨st, hfold, rfl, hc⟩ := fold_of_pass h
  obtain ⟨hout, hins, hzero, htrack⟩ := fold_unchanged rfl (by simp) hfold hc.symm
  rw [pass_of_fold hfold hins hzero] at h
  simp only [Except.ok.injEq, Prod.mk.injEq] at h
  exact ⟨by simpa using hout, h.2.1.symm, htrack⟩

end Paging

end PagedAsm
