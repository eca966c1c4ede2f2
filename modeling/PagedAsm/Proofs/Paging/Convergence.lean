import PagedAsm.Proofs.Paging.Paths

/-!
# The page fix-up converges

Each pass of the fix-up either changes nothing, or only rewrites stale switches, or inserts
switches. A switch is inserted only before an instruction with an address that has none yet
(`pass_blocks`), so passes that insert are at most as many as such instructions. A pass that
only rewrites leaves every label in place and ends with code that the straight-line scan
accepts as it is (`fold_no_insert`), and a pass over such code changes nothing
(`pass_of_tracked`). So the fix-up stops after at most two passes more than there are
instructions with an address, well within its limit (`fixPages_converges`).
-/

namespace PagedAsm

namespace Paging

variable {set : InstructionSet} {placed : Placement} {st st' : Pass} {p : Pending}

/-! ### What one step of a pass can do -/

theorem step_cases (h : Pass.step set placed st p = .ok st') :
    (p.mnemonic = "CRP" ∧
      st' = { st.noted with out := st.out.push p, rom := selectedPage p.argument }) ∨
    (p.mnemonic = "CCP" ∧
      st' = { st.noted with out := st.out.push p, cache := selectedPage p.argument }) ∨
    (p.mnemonic ≠ "CRP" ∧ p.mnemonic ≠ "CCP" ∧
      (∀ addr ∈ addressOf set (st.noted.labelIndex placed) p,
        0 ≤ addr ∧ addr / 256 ≤ maxPage ∧ addr / 256 = Pass.tracker set st p) ∧
      st' = { st.noted with out := st.out.push p }) ∨
    (∃ addr, addressOf set (st.noted.labelIndex placed) p = some addr ∧ 0 ≤ addr ∧
      addr / 256 ≤ maxPage ∧ st' = Pass.switched set st.noted p (addr / 256)) := by
  by_cases h1 : p.mnemonic = "CRP"
  · rw [step_user_rom h1] at h
    exact .inl ⟨h1, (Except.ok.inj h).symm⟩
  by_cases h2 : p.mnemonic = "CCP"
  · rw [step_user_cache h2] at h
    exact .inr (.inl ⟨h2, (Except.ok.inj h).symm⟩)
  rw [step_of_not_switch h1 h2] at h
  right; right
  cases ha : addressOf set (st.noted.labelIndex placed) p with
  | none =>
    rw [ha] at h
    exact .inl ⟨h1, h2, by simp, (Except.ok.inj h).symm⟩
  | some addr =>
    rw [ha] at h
    simp only at h
    split at h
    · cases h
    rename_i hrange
    have hb := page_bounds hrange
    split at h
    · rename_i hpage
      refine .inl ⟨h1, h2, ?_, (Except.ok.inj h).symm⟩
      intro a ha'
      cases ha'
      exact ⟨by omega, hb.2, hpage⟩
    · exact .inr ⟨addr, rfl, by omega, hb.2, (Except.ok.inj h).symm⟩

theorem switched_trackers (page : Int) :
    (Pass.switched set st p page).rom = (if set.isJump p.mnemonic then page else st.rom) ∧
      (Pass.switched set st p page).cache = (if set.isJump p.mnemonic then st.cache else page) := by
  unfold Pass.switched
  split
  · split <;> cases set.isJump p.mnemonic <;> simp
  · cases set.isJump p.mnemonic <;> simp

theorem switched_counts (page : Int) :
    (Pass.switched set st p page).out.size + st.inserted =
        st.out.size + 1 + (Pass.switched set st p page).inserted ∧
      st.inserted ≤ (Pass.switched set st p page).inserted ∧
      (Pass.switched set st p page).before = st.before := by
  by_cases hs : ∃ prev, st.out.back? = some prev ∧
      (prev.synthetic = true ∧ prev.mnemonic = switchFor set p)
  · obtain ⟨prev, hb, hprev⟩ := hs
    obtain ⟨hout, hins, hbefore⟩ := switched_update page hb hprev
    refine ⟨?_, by omega, hbefore⟩
    rw [hout, hins]
    simp
  · have hnone : ∀ prev ∈ st.out.back?,
        ¬(prev.synthetic = true ∧ prev.mnemonic = switchFor set p) :=
      fun prev hprev hsw => hs ⟨prev, hprev, hsw⟩
    obtain ⟨hout, hins, hbefore⟩ := switched_insert page hnone
    refine ⟨?_, by omega, hbefore⟩
    rw [hout, hins]
    simp
    omega

theorem step_counts (h : Pass.step set placed st p = .ok st') :
    st'.out.size + st.inserted = st.out.size + 1 + st'.inserted ∧ st.inserted ≤ st'.inserted ∧
      st'.before = st.before.push st.inserted := by
  rcases step_cases h with ⟨-, rfl⟩ | ⟨-, rfl⟩ | ⟨-, -, -, rfl⟩ | ⟨addr, -, -, -, rfl⟩
  · simp [Pass.noted]
  · simp [Pass.noted]
  · simp [Pass.noted]
  · obtain ⟨hsize, hle, hbefore⟩ := @switched_counts set st.noted p (addr / 256)
    simp only [Pass.noted_out, Pass.noted_inserted] at hsize hle
    exact ⟨hsize, hle, by rw [hbefore]; rfl⟩

theorem fold_counts : ∀ {code : List Pending} {st st' : Pass},
    code.foldlM (Pass.step set placed) st = .ok st' →
    st'.out.size + st.inserted = st.out.size + code.length + st'.inserted ∧
      st.inserted ≤ st'.inserted ∧
      ((∀ x ∈ st.before.toList, x ≤ st.inserted) → ∀ x ∈ st'.before.toList, x ≤ st'.inserted)
  | [], _, _, h => by
    cases h
    exact ⟨by simp, Nat.le_refl _, id⟩
  | p :: rest, st, st', h => by
    simp only [List.foldlM_cons] at h
    obtain ⟨st₁, h₁, h₂⟩ := bind_eq_ok h
    obtain ⟨hsize₁, hle₁, hbefore₁⟩ := step_counts h₁
    obtain ⟨hsize, hle, hbefore⟩ := fold_counts h₂
    refine ⟨by simp only [List.length_cons]; omega, by omega, fun hst => hbefore ?_⟩
    intro x hx
    simp only [hbefore₁, Array.toList_push, List.mem_append, List.mem_singleton] at hx
    rcases hx with hx | rfl
    · exact Nat.le_trans (hst x hx) hle₁
    · exact hle₁

/-! ### Passes that insert nothing -/

theorem tracked_append {index : Nat → Int} : ∀ (xs ys : List Pending) (rom cache : Int),
    Tracked set index rom cache (xs ++ ys) ↔
      Tracked set index rom cache xs ∧
        Tracked set index (xs.foldl track (rom, cache)).1 (xs.foldl track (rom, cache)).2 ys
  | [], ys, rom, cache => by simp [Tracked]
  | q :: xs, ys, rom, cache => by
    by_cases hr : q.mnemonic = "CRP"
    · simpa [Tracked, hr, track] using tracked_append xs ys (selectedPage q.argument) cache
    by_cases hc : q.mnemonic = "CCP"
    · simpa [Tracked, hr, hc, track] using tracked_append xs ys rom (selectedPage q.argument)
    simp only [List.cons_append, Tracked, hr, hc, if_false, List.foldl_cons,
      track_of_not_switch hr hc, tracked_append xs ys rom cache, and_assoc]

theorem step_no_insert (h : Pass.step set placed st p = .ok st') (hins : st.inserted = 0)
    (hzero : ∀ x ∈ st.before.toList, x = 0)
    (htrack : Tracked set (labelAt placed) 0 0 st.out.toList)
    (hend : st.out.toList.foldl track (0, 0) = (st.rom, st.cache)) (hins' : st'.inserted = 0) :
    Tracked set (labelAt placed) 0 0 st'.out.toList ∧
      st'.out.toList.foldl track (0, 0) = (st'.rom, st'.cache) := by
  have hindex : st.noted.labelIndex placed = labelAt placed := labelIndex_unmoved hins hzero
  rcases step_cases h with ⟨h1, rfl⟩ | ⟨h2, rfl⟩ | ⟨h1, h2, hpage, rfl⟩ | ⟨addr, ha, h0, hmax, rfl⟩
  · -- a user ROM switch
    simp only [Pass.noted, Array.toList_push, tracked_append, List.foldl_append, hend]
    exact ⟨⟨htrack, by simp [Tracked, h1]⟩, by simp [track, h1]⟩
  · -- a user cache switch
    simp only [Pass.noted, Array.toList_push, tracked_append, List.foldl_append, hend]
    exact ⟨⟨htrack, by simp [Tracked, h2]⟩, by simp [track, h2]⟩
  · -- an instruction already in its page
    rw [hindex] at hpage
    simp only [Pass.noted, Array.toList_push, tracked_append, List.foldl_append, hend]
    refine ⟨⟨htrack, ?_⟩, by simp [track_of_not_switch h1 h2]⟩
    simp only [Tracked, h1, h2, if_false, and_true]
    simpa [Pass.tracker] using hpage
  · by_cases hs : ∃ prev, st.noted.out.back? = some prev ∧
        (prev.synthetic = true ∧ prev.mnemonic = switchFor set p)
    · obtain ⟨prev, hb, hprev⟩ := hs
      obtain ⟨hout, -, -⟩ := switched_update (addr / 256) hb hprev
      obtain ⟨hrom, hcache⟩ := @switched_trackers set st.noted p (addr / 256)
      rw [hindex] at ha
      simp only [Pass.noted_out] at hb hout
      obtain ⟨pre, hpre⟩ := List.getLast?_eq_some_iff.1 (by rw [Array.getLast?_toList]; exact hb)
      have hsize : st.out.size - 1 = pre.length := by
        rw [← Array.length_toList, hpre]
        simp
      have hset : (st.out.set! (st.out.size - 1)
          { prev with argument := .integer (addr / 256) }).toList =
          pre ++ [{ prev with argument := .integer (addr / 256) }] := by
        rw [Array.set!_eq_setIfInBounds, Array.toList_setIfInBounds, hpre, hsize]
        simp
      rw [hpre, tracked_append] at htrack
      rw [hpre, List.foldl_append] at hend
      rw [hout, hrom, hcache, Array.toList_push, hset]
      simp only [List.append_assoc, List.singleton_append, tracked_append, List.foldl_append,
        List.foldl_cons, List.foldl_nil]
      obtain ⟨hn1, hn2⟩ := addressed_not_switch
        (show Addressed set p by rw [Addressed, ← addressOf_isSome set (labelAt placed), ha]; rfl)
      rcases switchFor_cases set p with ⟨hj, hsw⟩ | ⟨hj, hsw⟩
      · have hm : prev.mnemonic = "CRP" := hprev.2.trans hsw
        have hcache₀ : (pre.foldl track (0, 0)).2 = st.cache := by
          simpa [track, hm] using congrArg Prod.snd hend
        refine ⟨⟨htrack.1, ?_⟩, ?_⟩
        · simp [Tracked, hm, hn1, hn2, ha, selectedPage, hj, h0, hmax]
        · simp [track, hm, hn1, hn2, hj, selectedPage, hcache₀]
      · have hm : prev.mnemonic = "CCP" := hprev.2.trans hsw
        have hrom₀ : (pre.foldl track (0, 0)).1 = st.rom := by
          simpa [track, hm] using congrArg Prod.fst hend
        refine ⟨⟨htrack.1, ?_⟩, ?_⟩
        · simp [Tracked, hm, hn1, hn2, ha, selectedPage, hj, h0, hmax]
        · simp [track, hm, hn1, hn2, hj, selectedPage, hrom₀]
    · have hnone : ∀ prev ∈ st.noted.out.back?,
          ¬(prev.synthetic = true ∧ prev.mnemonic = switchFor set p) :=
        fun prev hprev hsw => hs ⟨prev, hprev, hsw⟩
      obtain ⟨-, hcount, -⟩ := switched_insert (addr / 256) hnone
      simp [hcount] at hins'

/-- A run of steps that inserts nothing leaves code that the scan accepts. -/
theorem fold_no_insert : ∀ {code : List Pending} {st st' : Pass}, st.inserted = 0 →
    (∀ x ∈ st.before.toList, x = 0) → Tracked set (labelAt placed) 0 0 st.out.toList →
    st.out.toList.foldl track (0, 0) = (st.rom, st.cache) →
    code.foldlM (Pass.step set placed) st = .ok st' → st'.inserted = 0 →
    Tracked set (labelAt placed) 0 0 st'.out.toList
  | [], _, _, _, _, htrack, _, h, _ => by
    cases h
    exact htrack
  | p :: rest, st, st', hins, hzero, htrack, hend, h, hins' => by
    simp only [List.foldlM_cons] at h
    obtain ⟨st₁, h₁, h₂⟩ := bind_eq_ok h
    obtain ⟨-, -, hbefore₁⟩ := step_counts h₁
    have hins₁ : st₁.inserted = 0 := by
      have := (fold_counts h₂).2.1
      omega
    obtain ⟨htrack₁, hend₁⟩ := step_no_insert h₁ hins hzero htrack hend hins₁
    have hzero₁ : ∀ x ∈ st₁.before.toList, x = 0 := by
      rw [hbefore₁]
      exact zeros_push hzero hins
    exact fold_no_insert hins₁ hzero₁ htrack₁ hend₁ h₂ hins'

theorem fold_tracked : ∀ {code : List Pending} {st : Pass}, st.inserted = 0 →
    (∀ x ∈ st.before.toList, x = 0) → Tracked set (labelAt placed) st.rom st.cache code →
    ∃ st', code.foldlM (Pass.step set placed) st = .ok st' ∧
      st'.out.toList = st.out.toList ++ code ∧ st'.changed = st.changed ∧ st'.inserted = 0 ∧
      ∀ x ∈ st'.before.toList, x = 0
  | [], st, hins, hzero, _ => ⟨st, rfl, by simp, rfl, hins, hzero⟩
  | p :: rest, st, hins, hzero, htrack => by
    obtain ⟨st₁, h₁, hout₁, hchanged, hins₁, hbefore₁, hrest⟩ : ∃ st₁, Pass.step set placed st p = .ok st₁ ∧
        st₁.out = st.out.push p ∧ st₁.changed = st.changed ∧ st₁.inserted = 0 ∧
          st₁.before = st.before.push 0 ∧ Tracked set (labelAt placed) st₁.rom st₁.cache rest := by
      unfold Tracked at htrack
      by_cases h1 : p.mnemonic = "CRP"
      · simp only [h1, if_true] at htrack
        exact ⟨_, step_user_rom h1, rfl, rfl, hins, by simp [Pass.noted, hins], htrack⟩
      by_cases h2 : p.mnemonic = "CCP"
      · simp only [h2, if_true] at htrack
        exact ⟨_, step_user_cache h2, rfl, rfl, hins, by simp [Pass.noted, hins], htrack⟩
      simp only [h1, h2, if_false] at htrack
      rw [step_of_not_switch h1 h2, labelIndex_unmoved hins hzero]
      cases ha : addressOf set (labelAt placed) p with
      | none => exact ⟨_, rfl, rfl, rfl, hins, by simp [Pass.noted, hins], htrack.2⟩
      | some addr =>
        obtain ⟨h0, hmax, hpage⟩ := htrack.1 addr ha
        have hrange : ¬(addr < 0 ∨ addr / 256 > maxPage) := by omega
        have htr : addr / 256 = Pass.tracker set st p := by
          simpa [Pass.tracker] using hpage
        refine ⟨{ st.noted with out := st.out.push p }, ?_, rfl, rfl, hins,
          by simp [Pass.noted, hins], htrack.2⟩
        dsimp only
        rw [if_neg hrange, if_pos htr]
    have hzero₁ : ∀ x ∈ st₁.before.toList, x = 0 := by
      rw [hbefore₁]
      exact zeros_push hzero rfl
    obtain ⟨st', h₂, hout, hchanged', hins', hzero'⟩ := fold_tracked hins₁ hzero₁ hrest
    refine ⟨st', ?_, ?_, hchanged'.trans hchanged, hins', hzero'⟩
    · simp only [List.foldlM_cons, h₁]
      exact h₂
    · rw [hout, hout₁]
      simp

/-- A pass over code that the scan accepts changes nothing. -/
theorem pass_of_tracked {code : List Pending} (h : Tracked set (labelAt placed) 0 0 code) :
    pass set placed code = .ok (code, placed, false) := by
  obtain ⟨st, hfold, hout, hchanged, hins, hzero⟩ := @fold_tracked set placed code {} rfl
    (by simp) h
  rw [pass_of_fold hfold hins hzero, hout, hchanged]
  rfl

theorem pass_length {code code' : List Pending} {placed' : Placement} {changed : Bool}
    (h : pass set placed code = .ok (code', placed', changed)) : code.length ≤ code'.length := by
  obtain ⟨st, hfold, rfl, -⟩ := fold_of_pass h
  have hsize := (fold_counts hfold).1
  simp only [Array.length_toList]
  simp at hsize
  omega

theorem pass_no_insert {code code' : List Pending} {placed' : Placement} {changed : Bool}
    (h : pass set placed code = .ok (code', placed', changed))
    (hlen : code'.length = code.length) :
    placed' = placed ∧ Tracked set (labelAt placed) 0 0 code' := by
  obtain ⟨st, hfold, rfl, -⟩ := fold_of_pass h
  obtain ⟨hsize, -, hbefore⟩ := fold_counts hfold
  have hins : st.inserted = 0 := by
    simp only [Array.length_toList] at hlen
    simp at hsize
    omega
  have hzero : ∀ x ∈ st.before.toList, x = 0 := by
    intro x hx
    have := hbefore (by simp) x hx
    omega
  rw [pass_of_fold hfold hins hzero] at h
  simp only [Except.ok.injEq, Prod.mk.injEq] at h
  exact ⟨h.2.1.symm, fold_no_insert rfl (by simp) (by simp [Tracked]) rfl hfold hins⟩

theorem pass_after_rewrite {code code' : List Pending} {placed' : Placement} {changed : Bool}
    (h : pass set placed code = .ok (code', placed', changed))
    (hlen : code'.length = code.length) :
    pass set placed' code' = .ok (code', placed', false) := by
  obtain ⟨rfl, htrack⟩ := pass_no_insert h hlen
  exact pass_of_tracked htrack

theorem step_error {d : Diagnostic} (h : Pass.step set placed st p = .error d) :
    ∃ addr, d.problem = .addressTooLarge addr := by
  by_cases h1 : p.mnemonic = "CRP"
  · rw [step_user_rom h1] at h
    cases h
  by_cases h2 : p.mnemonic = "CCP"
  · rw [step_user_cache h2] at h
    cases h
  rw [step_of_not_switch h1 h2] at h
  split at h
  · cases h
  · split at h
    · cases h
      exact ⟨_, rfl⟩
    · split at h <;> cases h

theorem fold_error : ∀ {code : List Pending} {st : Pass} {d : Diagnostic},
    code.foldlM (Pass.step set placed) st = .error d → ∃ addr, d.problem = .addressTooLarge addr
  | [], _, _, h => by cases h
  | p :: rest, st, d, h => by
    simp only [List.foldlM_cons] at h
    cases h₁ : Pass.step set placed st p with
    | error e =>
      rw [h₁] at h
      cases h
      exact step_error h₁
    | ok st₁ =>
      rw [h₁] at h
      exact fold_error h

theorem pass_error {code : List Pending} {d : Diagnostic} (h : pass set placed code = .error d) :
    ∃ addr, d.problem = .addressTooLarge addr := by
  unfold pass at h
  cases hfold : code.foldlM (Pass.step set placed) {} with
  | ok st =>
    rw [hfold] at h
    cases h
  | error e =>
    rw [hfold] at h
    cases h
    exact fold_error hfold

/-! ### Counting switches -/

/-- Whether an instruction has an address: a jump to a label, or any pointer. -/
def hasAddress (set : InstructionSet) (p : Pending) : Bool :=
  match p.argument with
  | .label _ => set.isJump p.mnemonic
  | .pointer _ => true
  | _ => false

theorem hasAddress_of_addressed (h : Addressed set p) : hasAddress set p = true := by
  unfold Addressed addressOf at h
  split at h
  · simp at h
  · unfold hasAddress
    split at h <;> rename_i harg <;> simp_all

theorem length_flatten (bs : List Block) :
    (flatten bs).length = bs.length + bs.countP (fun b => b.switch.isSome) := by
  induction bs with
  | nil => rfl
  | cons b bs ih =>
    rcases b with ⟨_ | s, x⟩ <;> simp [flatten, Block.toList] at ih ⊢ <;> omega

theorem flatten_length_le {bs : List Block} (hwf : ∀ b ∈ bs, b.WF set) :
    (flatten bs).length ≤ bs.length + (bs.map Block.insn).countP (hasAddress set) := by
  rw [length_flatten, List.countP_map]
  have hle : bs.countP (fun b => b.switch.isSome) ≤
      bs.countP (fun b => hasAddress set b.insn) := by
    apply List.countP_mono_left
    intro b hb hs
    obtain ⟨s, hs⟩ := Option.isSome_iff_exists.mp hs
    exact hasAddress_of_addressed ((hwf b hb).2 s hs).2
  simpa [Function.comp_def] using Nat.add_le_add_left hle bs.length

/-! ### Repeated passes -/

theorem settle_succ_of_pass {fuel : Nat} {code code₁ : List Pending} {placed₁ : Placement}
    {changed : Bool} (h : pass set placed code = .ok (code₁, placed₁, changed)) :
    settle set (fuel + 1) code placed =
      if changed then settle set fuel code₁ placed₁ else .ok (code₁, placed₁) := by
  simp only [settle, h]
  rfl

theorem settle_succ_of_error {fuel : Nat} {code : List Pending} {e : Diagnostic}
    (h : pass set placed code = .error e) : settle set (fuel + 1) code placed = .error e := by
  simp only [settle, h]
  rfl

theorem settle_stops : ∀ (fuel : Nat) {bs : List Block} {placed : Placement},
    (∀ b ∈ bs, b.WF set) →
    (bs.map Block.insn).countP (hasAddress set) + bs.length + 2 ≤ fuel + (flatten bs).length →
    (∀ extra, settle set (fuel + extra) (flatten bs) placed = settle set fuel (flatten bs) placed) ∧
      ∀ d, settle set fuel (flatten bs) placed = .error d → d.problem ≠ .pagingDiverged
  | 0, bs, _, hwf, hfuel => by
    have := flatten_length_le hwf
    omega
  | fuel + 1, bs, placed, hwf, hfuel => by
    have hshift : ∀ extra, fuel + 1 + extra = fuel + extra + 1 := by omega
    cases hpass : pass set placed (flatten bs) with
    | error e =>
      refine ⟨fun extra => ?_, fun d hd => ?_⟩
      · rw [hshift, settle_succ_of_error hpass, settle_succ_of_error hpass]
      · rw [settle_succ_of_error hpass] at hd
        cases hd
        obtain ⟨addr, ha⟩ := pass_error hpass
        rw [ha]
        simp
    | ok r =>
      obtain ⟨code₁, placed₁, changed⟩ := r
      obtain ⟨bs₁, rfl, hinsns, hwf₁, -, -⟩ := pass_blocks hwf hpass
      have hlen₁ : bs₁.length = bs.length := by simpa using congrArg List.length hinsns
      have hgrow := pass_length hpass
      cases changed with
      | false =>
        refine ⟨fun extra => ?_, fun d hd => ?_⟩
        · rw [hshift, settle_succ_of_pass hpass, settle_succ_of_pass hpass]
          rfl
        · rw [settle_succ_of_pass hpass] at hd
          cases hd
      | true =>
        rcases Nat.lt_or_ge (flatten bs).length (flatten bs₁).length with hmore | hsame
        · have hfuel₁ : (bs₁.map Block.insn).countP (hasAddress set) + bs₁.length + 2 ≤
              fuel + (flatten bs₁).length := by
            rw [hinsns, hlen₁]
            omega
          obtain ⟨hextra, hdiv⟩ := settle_stops fuel hwf₁ hfuel₁
          refine ⟨fun extra => ?_, fun d hd => ?_⟩
          · rw [hshift, settle_succ_of_pass hpass, settle_succ_of_pass hpass, if_pos rfl,
              if_pos rfl]
            exact hextra extra
          · rw [settle_succ_of_pass hpass, if_pos rfl] at hd
            exact hdiv d hd
        · have hnext := pass_after_rewrite hpass (by omega)
          have hpos : 1 ≤ fuel := by
            have := flatten_length_le hwf
            omega
          obtain ⟨f, rfl⟩ : ∃ f, fuel = f + 1 := ⟨fuel - 1, by omega⟩
          refine ⟨fun extra => ?_, fun d hd => ?_⟩
          · rw [hshift, settle_succ_of_pass hpass, settle_succ_of_pass hpass, if_pos rfl,
              if_pos rfl, show f + 1 + extra = f + extra + 1 by omega,
              settle_succ_of_pass hnext, settle_succ_of_pass hnext]
            rfl
          · rw [settle_succ_of_pass hpass, if_pos rfl, settle_succ_of_pass hnext] at hd
            cases hd

theorem settle_error : ∀ {fuel : Nat} {code : List Pending} {placed : Placement} {d : Diagnostic},
    settle set fuel code placed = .error d →
    (∃ addr, d.problem = .addressTooLarge addr) ∨ d.problem = .pagingDiverged
  | 0, code, _, d, h => by
    simp only [settle] at h
    split at h <;> cases h <;> exact .inr rfl
  | fuel + 1, code, placed, d, h => by
    cases hpass : pass set placed code with
    | error e =>
      rw [settle_succ_of_error hpass] at h
      cases h
      exact .inl (pass_error hpass)
    | ok r =>
      obtain ⟨code₁, placed₁, changed⟩ := r
      rw [settle_succ_of_pass hpass] at h
      cases changed with
      | false => cases h
      | true => exact settle_error h

theorem fixPages_error {code : List Pending} {d : Diagnostic}
    (hwritten : ∀ x ∈ code, x.synthetic = false) (h : fixPages set code placed = .error d) :
    ∃ addr, d.problem = .addressTooLarge addr := by
  have hwf₀ : ∀ b ∈ plain code, b.WF set := plain_wf hwritten
  have hplain : (plain code).map Block.insn = code := by simp [plain, Function.comp_def]
  have hlen₀ : (plain code).length = code.length := by simp [plain]
  have hA := List.countP_le_length (p := hasAddress set) (l := code)
  obtain ⟨-, hdiv⟩ := settle_stops (code.length + 2 * (maxPage + 1) + 2) hwf₀
    (by rw [hplain, hlen₀, flatten_plain]; omega)
  rw [flatten_plain] at hdiv
  rcases settle_error h with hto | hdiverged
  · exact hto
  · exact absurd hdiverged (hdiv d h)

/-! ### The fix-up -/

/-- **The page fix-up converges within its limit.** Take the code and labels that label
placement makes of typed code, and let `A` count its instructions with an address. Then any
budget of at least `A + 2` passes gives the fix-up's own result, and that result is never a
failure to converge. The code it returns has at most one switch before each instruction, and
only before an instruction with an address, so it has at most `A` instructions more. And a pass
that only rewrites stale switches is always followed by a pass that changes nothing. -/
theorem fixPages_converges (set : InstructionSet) (n : Nat) (typed : List Element)
    (htyped : ∀ p, Element.instruction p ∈ typed → p.synthetic = false)
    {code : List Pending} {placed : Placement} (hex : excise n typed = (code, placed)) :
    (∀ fuel, code.countP (hasAddress set) + 2 ≤ fuel →
        settle set fuel code placed = fixPages set code placed) ∧
      (∀ d, fixPages set code placed = .error d → d.problem ≠ .pagingDiverged) ∧
      (∀ code' placed', fixPages set code placed = .ok (code', placed') →
        (∃ bs', code' = flatten bs' ∧ bs'.map Block.insn = code ∧ ∀ b ∈ bs', b.WF set) ∧
          code'.length ≤ code.length + code.countP (hasAddress set)) ∧
      ∀ (code₀ code₁ : List Pending) (placed₀ placed₁ : Placement) (changed : Bool),
        pass set placed₀ code₀ = .ok (code₁, placed₁, changed) → code₁.length = code₀.length →
        pass set placed₁ code₁ = .ok (code₁, placed₁, false) := by
  obtain ⟨hcode, -⟩ := excise_spec hex
  have hwf₀ : ∀ b ∈ plain code, b.WF set :=
    plain_wf fun x hx => htyped x (mem_instructionsOf (hcode ▸ hx))
  have hplain : (plain code).map Block.insn = code := by simp [plain, Function.comp_def]
  have hlen₀ : (plain code).length = code.length := by simp [plain]
  obtain ⟨hextra, hdiv⟩ := settle_stops (code.countP (hasAddress set) + 2) hwf₀
    (by rw [hplain, hlen₀, flatten_plain]; omega)
  rw [flatten_plain] at hextra hdiv
  -- every budget past `A + 2` passes, the fix-up's own included, gives the same result
  have hstop : ∀ fuel, code.countP (hasAddress set) + 2 ≤ fuel →
      settle set fuel code placed = settle set (code.countP (hasAddress set) + 2) code placed := by
    intro fuel hfuel
    obtain ⟨k, rfl⟩ := Nat.exists_eq_add_of_le hfuel
    exact hextra k
  have hfix : fixPages set code placed =
      settle set (code.countP (hasAddress set) + 2) code placed := by
    have hA := List.countP_le_length (p := hasAddress set) (l := code)
    exact hstop _ (by simp only [maxPage]; omega)
  refine ⟨fun fuel h => (hstop fuel h).trans hfix.symm, fun d hd => hdiv d (hfix ▸ hd),
    fun code' placed' h => ?_, fun _ _ _ _ _ => pass_after_rewrite⟩
  obtain ⟨bs', rfl, hinsns, hwf', -, -⟩ := fixPages_blocks htyped hex h
  refine ⟨⟨bs', rfl, hinsns, hwf'⟩, ?_⟩
  have hle := flatten_length_le hwf'
  have hlen : bs'.length = code.length := by simpa using congrArg List.length hinsns
  rw [hinsns, hlen] at hle
  exact hle

/-- `NOP / LRA $300`: one instruction with an address, so three passes are enough. -/
theorem load_in_page_one_converges :
    (∀ p, Element.instruction p ∈ [.instruction ⟨"NOP", .none, 1, Span.point 0, false⟩,
        .instruction ⟨"LRA", .pointer 300, 2, Span.point 4, false⟩] → p.synthetic = false) ∧
      ((∀ fuel, [(⟨"NOP", .none, 1, Span.point 0, false⟩ : Pending),
          ⟨"LRA", .pointer 300, 2, Span.point 4, false⟩].countP
            (hasAddress InstructionSet.standard) + 2 ≤ fuel →
          settle InstructionSet.standard fuel [⟨"NOP", .none, 1, Span.point 0, false⟩,
            ⟨"LRA", .pointer 300, 2, Span.point 4, false⟩] #[] =
          fixPages InstructionSet.standard [⟨"NOP", .none, 1, Span.point 0, false⟩,
            ⟨"LRA", .pointer 300, 2, Span.point 4, false⟩] #[]) ∧
        (∀ d, fixPages InstructionSet.standard [⟨"NOP", .none, 1, Span.point 0, false⟩,
            ⟨"LRA", .pointer 300, 2, Span.point 4, false⟩] #[] = .error d →
          d.problem ≠ .pagingDiverged) ∧
        (∀ code' placed', fixPages InstructionSet.standard
            [⟨"NOP", .none, 1, Span.point 0, false⟩,
              ⟨"LRA", .pointer 300, 2, Span.point 4, false⟩] #[] = .ok (code', placed') →
          (∃ bs', code' = flatten bs' ∧ bs'.map Block.insn =
              [⟨"NOP", .none, 1, Span.point 0, false⟩,
                ⟨"LRA", .pointer 300, 2, Span.point 4, false⟩] ∧
              ∀ b ∈ bs', b.WF InstructionSet.standard) ∧
            code'.length ≤ 2 + [(⟨"NOP", .none, 1, Span.point 0, false⟩ : Pending),
              ⟨"LRA", .pointer 300, 2, Span.point 4, false⟩].countP
                (hasAddress InstructionSet.standard)) ∧
        ∀ (code₀ code₁ : List Pending) (placed₀ placed₁ : Placement) (changed : Bool),
          pass InstructionSet.standard placed₀ code₀ = .ok (code₁, placed₁, changed) →
          code₁.length = code₀.length →
          pass InstructionSet.standard placed₁ code₁ = .ok (code₁, placed₁, false)) := by
  have htyped : ∀ p, Element.instruction p ∈ [.instruction ⟨"NOP", .none, 1, Span.point 0, false⟩,
      .instruction ⟨"LRA", .pointer 300, 2, Span.point 4, false⟩] → p.synthetic = false := by
    intro p hp
    simp only [List.mem_cons, Element.instruction.injEq, List.not_mem_nil, or_false] at hp
    rcases hp with rfl | rfl <;> rfl
  exact ⟨htyped, fixPages_converges InstructionSet.standard 0 _ htyped rfl⟩

end Paging

end PagedAsm
