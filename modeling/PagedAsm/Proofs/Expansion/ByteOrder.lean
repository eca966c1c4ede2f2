import PagedAsm.Assembly.Expansion

/-!
# Grouping the bytes of a text

`byteOrder` sorts the positions of a text's bytes by byte value, and joins each run of one value
into a group. The groups hold every position once, with its byte (`byteOrder_spread`); each
group has a position; and the group values ascend strictly, so each byte value of the text
heads exactly one group (`byteOrder_values_sorted`, `mem_byteOrder_values`).
-/

namespace PagedAsm

namespace Expansion

/-- Join a byte at a position to the groups after it: into the first group when that group has
the same value, else as a group of its own. -/
def joinRun (x : UInt8 × Nat) : List (UInt8 × List Nat) → List (UInt8 × List Nat)
  | (b, is) :: more =>
    if x.1 == b then (x.1, x.2 :: is) :: more else (x.1, [x.2]) :: (b, is) :: more
  | [] => [(x.1, [x.2])]

/-- The positions of a group, each with the group's value. -/
def spread (g : UInt8 × List Nat) : List (UInt8 × Nat) := g.2.map fun i => (g.1, i)

theorem byteOrder_eq (bytes : List UInt8) :
    byteOrder bytes = ((bytes.zipIdx).mergeSort fun a b => a.1 ≤ b.1).foldr joinRun [] := by
  unfold byteOrder
  dsimp only
  congr 1
  funext x acc
  rcases x with ⟨b, i⟩
  rcases acc with _ | ⟨⟨b', is⟩, more⟩ <;> rfl

variable {l : List (UInt8 × Nat)}

theorem flatMap_spread_groups (l : List (UInt8 × Nat)) :
    (l.foldr joinRun []).flatMap spread = l := by
  induction l with
  | nil => rfl
  | cons x l ih =>
    rw [List.foldr_cons]
    generalize l.foldr joinRun [] = gs at ih
    subst ih
    rcases gs with _ | ⟨⟨b, is⟩, more⟩
    · rfl
    · simp only [joinRun]
      split
      · rename_i heq
        have hb : x.1 = b := by simpa using heq
        subst hb
        rfl
      · rfl

theorem groups_ne_nil : ∀ g ∈ l.foldr joinRun [], g.2 ≠ [] := by
  induction l with
  | nil => simp
  | cons x l ih =>
    rw [List.foldr_cons]
    generalize l.foldr joinRun [] = gs at ih
    rcases gs with _ | ⟨⟨b, is⟩, more⟩
    · simp [joinRun]
    · simp only [joinRun]
      split
      · intro g hg
        rcases List.mem_cons.1 hg with rfl | hg
        · simp
        · exact ih g (List.mem_cons_of_mem _ hg)
      · intro g hg
        rcases List.mem_cons.1 hg with rfl | hg
        · simp
        · exact ih g hg

theorem mem_group_values {b : UInt8} :
    b ∈ (l.foldr joinRun []).map Prod.fst ↔ ∃ i, (b, i) ∈ l := by
  conv => rhs; rw [← flatMap_spread_groups l]
  simp only [List.mem_map, List.mem_flatMap, spread]
  constructor
  · rintro ⟨g, hg, rfl⟩
    obtain ⟨i, is, hgi⟩ := List.exists_cons_of_ne_nil (groups_ne_nil g hg)
    exact ⟨i, g, hg, i, by simp [hgi]⟩
  · rintro ⟨i, g, hg, j, -, hgj⟩
    cases hgj
    exact ⟨g, hg, rfl⟩

theorem group_values_sorted (hl : l.Pairwise fun a b => a.1 ≤ b.1) :
    ((l.foldr joinRun []).map Prod.fst).Pairwise (· < ·) := by
  induction l with
  | nil => simp
  | cons x l ih =>
    have hrest := ih (List.pairwise_cons.1 hl).2
    have hle : ∀ b ∈ (l.foldr joinRun []).map Prod.fst, x.1 ≤ b := by
      intro b hb
      obtain ⟨i, hi⟩ := mem_group_values.1 hb
      exact (List.pairwise_cons.1 hl).1 (b, i) hi
    rw [List.foldr_cons]
    generalize l.foldr joinRun [] = gs at hrest hle
    rcases gs with _ | ⟨⟨b, is⟩, more⟩
    · simp [joinRun]
    · simp only [joinRun]
      split
      · rename_i heq
        have hb : x.1 = b := by simpa using heq
        simpa [hb] using hrest
      · rename_i hne
        have hxb : x.1 ≠ b := by simpa using hne
        refine List.pairwise_cons.2 ⟨?_, hrest⟩
        intro c hc
        exact UInt8.lt_of_le_of_ne (hle c hc) (by
          rintro rfl
          rcases List.mem_cons.1 hc with h | hc
          · exact hxb h
          · have hbc := (List.pairwise_cons.1 hrest).1 _ hc
            have hxb' := hle b List.mem_cons_self
            exact absurd (UInt8.lt_of_le_of_lt hxb' hbc) (UInt8.lt_irrefl _))

/-! ### The groups of a text -/

/-- The groups hold every position of the bytes once, with its byte. -/
theorem byteOrder_spread (bytes : List UInt8) :
    ((byteOrder bytes).flatMap spread).Perm bytes.zipIdx := by
  rw [byteOrder_eq, flatMap_spread_groups]
  exact List.mergeSort_perm _ _

theorem byteOrder_ne_nil (bytes : List UInt8) : ∀ g ∈ byteOrder bytes, g.2 ≠ [] := by
  rw [byteOrder_eq]
  exact groups_ne_nil

/-- The group values ascend strictly. -/
theorem byteOrder_values_sorted (bytes : List UInt8) :
    ((byteOrder bytes).map Prod.fst).Pairwise (· < ·) := by
  rw [byteOrder_eq]
  apply group_values_sorted
  have hsorted : (bytes.zipIdx.mergeSort fun a b => decide (a.1 ≤ b.1)).Pairwise
      fun a b => decide (a.1 ≤ b.1) = true :=
    List.pairwise_mergeSort
      (fun a b c hab hbc => by simpa using UInt8.le_trans (by simpa using hab) (by simpa using hbc))
      (fun a b => by simpa using UInt8.le_total a.1 b.1) bytes.zipIdx
  exact hsorted.imp fun h => by simpa using h

/-- The group values are the byte values of the text. -/
theorem mem_byteOrder_values {bytes : List UInt8} {b : UInt8} :
    b ∈ (byteOrder bytes).map Prod.fst ↔ b ∈ bytes := by
  rw [byteOrder_eq, mem_group_values]
  simp only [List.mem_mergeSort]
  constructor
  · rintro ⟨i, hi⟩
    exact List.fst_mem_of_mem_zipIdx hi
  · intro hb
    obtain ⟨i, hi, hget⟩ := List.getElem_of_mem hb
    exact ⟨i, List.mem_zipIdx_iff_getElem?.2 (by simp [hi, hget])⟩

end Expansion

end PagedAsm
