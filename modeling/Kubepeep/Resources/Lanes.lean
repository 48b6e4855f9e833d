import Kubepeep.Resources.Merge
import Kubepeep.Resources.Origins

/-!
# Merging origins in the order of their namespaces

With one group, version and resource the canonical origins ascend by namespace, and under the
identity order every row of an origin is smaller than every row of a later one.  The merge then
takes the rows origin by origin: what it emits is the first part of what is left.
-/

open Option List

namespace Kubepeep.Resources

/-- The comparators of `resources_backend.go`: by namespace, then by name. -/
def identityLess {T : Type} (namespaceOf name : T → String) (l r : T) : Bool :=
  if namespaceOf l ≠ namespaceOf r then decide (namespaceOf l < namespaceOf r)
  else decide (name l < name r)

def InOrder {T : Type} (less : T → T → Bool) (rows : List T) : Prop :=
  rows.Pairwise fun a b => less b a = false

theorem InOrder.sublist {T : Type} {less : T → T → Bool} {rows fewer : List T}
    (h : InOrder less rows) (hsub : fewer.Sublist rows) : InOrder less fewer :=
  Pairwise.sublist hsub h

theorem InOrder.sorted {T : Type} {less : T → T → Bool} {rows : List T} (h : InOrder less rows) :
    sortListItems rows less = rows := by
  apply Pairwise.insertionSort_eq
  exact Pairwise.imp (fun hle => by simp [hle]) h

namespace Sequential

section

variable {T : Type} {namespaceOf name : T → String}

theorem identityLess_of_lt {a b : T} (h : namespaceOf a < namespaceOf b) :
    identityLess namespaceOf name a b = true ∧ identityLess namespaceOf name b a = false := by
  have hne : namespaceOf a ≠ namespaceOf b := h.ne
  unfold identityLess
  rw [if_pos hne, if_pos hne.symm]
  exact ⟨decide_eq_true h, decide_eq_false h.asymm⟩

theorem identityLess_of_le {a b : T} (h : namespaceOf a = namespaceOf b) (hname : name a ≤ name b) :
    identityLess namespaceOf name b a = false := by
  unfold identityLess
  rw [if_neg (not_not.mpr h.symm)]
  exact decide_eq_false hname.not_gt

/-! ## The order of the origins -/

theorem namespace_lt_of_key {a b : Origin} (hgroup : a.apiGroup = b.apiGroup)
    (hversion : a.version = b.version) (hresource : a.resource = b.resource) (hle : a.Key ≤ b.Key)
    (hne : a.Key ≠ b.Key) : a.namespaceName < b.namespaceName := by
  have hkey : ∀ origin : Origin, origin.Key = keyPrefix origin ++ origin.namespaceName :=
    fun _ => rfl
  have hsame : keyPrefix a = keyPrefix b := by
    unfold keyPrefix
    rw [hgroup, hversion, hresource]
  rw [hkey, hkey, hsame] at hle hne
  rcases lt_trichotomy a.namespaceName b.namespaceName with hlt | heq | hgt
  · exact hlt
  · exact absurd (by rw [heq]) hne
  · have hkeys : keyPrefix b ++ b.namespaceName < keyPrefix b ++ a.namespaceName := by
      rw [String.lt_iff_toList_lt, String.toList_append, String.toList_append]
      exact append_left_lt (String.lt_iff_toList_lt.mp hgt)
    exact absurd hle hkeys.not_ge

variable {origins : List Origin}

theorem singleGVR_same (h : singleGVR origins = true) {a b : Origin}
    (ha : a ∈ origins) (hb : b ∈ origins) :
    a.apiGroup = b.apiGroup ∧ a.version = b.version ∧ a.resource = b.resource := by
  cases origins with
  | nil => exact absurd ha not_mem_nil
  | cons first rest =>
    have hfirst : ∀ origin ∈ first :: rest, origin.apiGroup = first.apiGroup ∧
        origin.version = first.version ∧ origin.resource = first.resource := by
      rw [forall_mem_cons]
      refine ⟨⟨rfl, rfl, rfl⟩, fun origin hmem => ?_⟩
      have hsame := all_eq_true.mp h origin hmem
      simp only [Bool.and_eq_true, beq_iff_eq] at hsame
      exact ⟨hsame.1.1, hsame.1.2, hsame.2⟩
    obtain ⟨ha₁, ha₂, ha₃⟩ := hfirst a ha
    obtain ⟨hb₁, hb₂, hb₃⟩ := hfirst b hb
    exact ⟨ha₁.trans hb₁.symm, ha₂.trans hb₂.symm, ha₃.trans hb₃.symm⟩

theorem canonicalOrigins_namespaces (hsingle : singleGVR (canonicalOrigins origins) = true)
    (hnodup : ((canonicalOrigins origins).map Origin.Key).Nodup) :
    (canonicalOrigins origins).Pairwise fun a b => a.namespaceName < b.namespaceName := by
  have hsorted : (canonicalOrigins origins).Pairwise fun a b => a.Key ≤ b.Key :=
    pairwise_insertionSort _ _
  have hkeys := pairwise_map.mp hnodup
  refine (hsorted.and hkeys).imp_of_mem fun {a b} ha hb hab => ?_
  obtain ⟨hgroup, hversion, hresource⟩ := singleGVR_same hsingle ha hb
  exact namespace_lt_of_key hgroup hversion hresource hab.1 hab.2

/-! ## The merge takes the first rows -/

/-- Each origin holds rows of its own namespace, and the namespaces ascend. -/
structure InLanes (namespaceOf : T → String) (origins : List (OriginCursor T)) : Prop where
  ascending : origins.Pairwise fun a b => a.origin.namespaceName < b.origin.namespaceName
  rows : ∀ state ∈ origins, ∀ row ∈ state.buffered, namespaceOf row = state.origin.namespaceName

variable {origins : List (OriginCursor T)} {admitted : String → Bool}

theorem candidates_eq_cons {index : Nat} {row : T} {later : List (Nat × T)}
    (h : candidates admitted origins = (index, row) :: later) :
    ∃ before state after, origins = before ++ state :: after ∧ before.length = index ∧
      state.buffered.head? = some row ∧
      ∀ other ∈ before, admitted other.origin.Key = true → other.buffered = [] := by
  obtain ⟨first, ⟨state, i⟩, rest, hsplit, hnone, hif, _⟩ := filterMap_eq_cons_iff.mp h
  have horigins : origins = first.map (·.1) ++ state :: rest.map (·.1) := by
    have := congrArg (map Prod.fst) hsplit
    simpa using this
  have hindex : first.length = i := by
    have hget : origins.zipIdx[first.length]? = some (state, i) := by
      rw [hsplit]
      simp
    rw [getElem?_zipIdx] at hget
    obtain ⟨_, _, heq⟩ := map_eq_some_iff.mp hget
    simpa using congrArg Prod.snd heq
  dsimp only at hif
  split at hif
  · obtain ⟨head, hhead, heq⟩ := map_eq_some_iff.mp hif
    obtain ⟨rfl, rfl⟩ := heq
    refine ⟨_, _, _, horigins, by rw [length_map, hindex], hhead, ?_⟩
    intro other hother hadmitted
    obtain ⟨pair, hpair, rfl⟩ := mem_map.mp hother
    have hskip := hnone pair hpair
    dsimp only at hskip
    rw [if_pos hadmitted] at hskip
    simpa using hskip
  · cases hif

theorem candidates_pairwise (hlanes : InLanes namespaceOf origins)
    (admitted : String → Bool) : (candidates admitted origins).Pairwise fun a b =>
      heapLess (identityLess namespaceOf name) b a = false := by
  have hindexed : origins.zipIdx.Pairwise fun a b => a.1.origin.namespaceName <
      b.1.origin.namespaceName := by
    have := hlanes.ascending
    rw [← zipIdx_map_fst 0 origins, pairwise_map] at this
    exact this
  refine pairwise_filterMap.mpr (hindexed.imp_of_mem ?_)
  rintro ⟨first, i⟩ ⟨second, j⟩ hfirst hsecond hlt a ha b hb
  -- Each candidate is the first row of its origin, so it lies in that namespace.
  have hrow : ∀ {state : OriginCursor T} {index : Nat} {candidate : Nat × T},
      (state, index) ∈ origins.zipIdx →
      (if admitted state.origin.Key then state.buffered.head?.map (index, ·) else none) =
        some candidate → namespaceOf candidate.2 = state.origin.namespaceName := by
    intro state index candidate hmem hif
    split at hif
    · obtain ⟨row, hhead, rfl⟩ := map_eq_some_iff.mp hif
      exact hlanes.rows state (fst_mem_of_mem_zipIdx hmem) row (mem_of_mem_head? hhead)
    · cases hif
  rw [← hrow hfirst ha, ← hrow hsecond hb] at hlt
  obtain ⟨htrue, hfalse⟩ : identityLess namespaceOf name a.2 b.2 = true ∧
      identityLess namespaceOf name b.2 a.2 = false := identityLess_of_lt hlt
  unfold heapLess
  rw [hfalse, htrue]
  rfl

variable {less : T → T → Bool}

theorem popLeast_eq_head {first : Nat × T} {rest : List (Nat × T)}
    (h : ∀ next ∈ rest, heapLess less next first = false) :
    popLeast less (first :: rest) = some first := by
  rw [popLeast, some.injEq]
  induction rest with
  | nil => rfl
  | cons next rest ih =>
    rw [forall_mem_cons] at h
    rw [foldl_cons, h.1]
    exact ih h.2

def bufferedBefore (count : Nat) (origins : List (OriginCursor T)) : Nat :=
  ((origins.take count).map (·.buffered.length)).sum

/-- The origins up to `stop` fill the page, or there are no others; nothing of them is unread but
rows of `stop` itself, and their rows take part in the merge. -/
structure Ready (admitted : String → Bool) (room stop : Nat) (origins : List (OriginCursor T)) :
    Prop where
  exhausted : ∀ j < stop, ∀ state, origins[j]? = some state → state.exhausted = true
  admitted : ∀ j ≤ stop, ∀ state, origins[j]? = some state → state.buffered ≠ [] →
    admitted state.origin.Key = true
  room : room ≤ bufferedBefore (stop + 1) origins ∨ origins.length ≤ stop

def popped (state : OriginCursor T) : OriginCursor T :=
  { state with buffered := state.buffered.tail }

theorem modify_middle {α : Type} (before : List α) (a : α) (after : List α) (f : α → α) :
    (before ++ a :: after).modify before.length f = before ++ f a :: after := by
  induction before with
  | nil => rfl
  | cons first rest ih => simpa using ih

section

variable {admitted : String → Bool} {room stop : Nat} {before after : List (OriginCursor T)}
  {state : OriginCursor T} {row : T}

theorem InLanes.pop (h : InLanes namespaceOf (before ++ state :: after)) :
    InLanes namespaceOf (before ++ popped state :: after) := by
  constructor
  · have hascending := h.ascending
    rw [pairwise_append, pairwise_cons] at hascending ⊢
    simpa [popped] using hascending
  · intro other hother row hrow
    have hrows := h.rows
    simp only [mem_append, mem_cons] at hother hrows
    rcases hother with hbefore | rfl | hafter
    · exact hrows other (.inl hbefore) row hrow
    · exact hrows state (.inr (.inl rfl)) row (mem_of_mem_tail hrow)
    · exact hrows other (.inr (.inr hafter)) row hrow

theorem Ready.before_empty (h : Ready admitted (room + 1) stop (before ++ state :: after))
    (hskip : ∀ other ∈ before, admitted other.origin.Key = true → other.buffered = []) :
    before.length ≤ stop ∧ ∀ other ∈ before, other.exhausted = true ∧ other.buffered = [] := by
  have hget : ∀ {j : Nat} (hj : j < before.length),
      (before ++ state :: after)[j]? = some before[j] := by
    intro j hj
    rw [getElem?_append_left hj, getElem?_eq_getElem hj]
  have hempty : ∀ {j : Nat} (hj : j < before.length), j ≤ stop → (before[j]).buffered = [] := by
    intro j hj hstop
    by_contra hrows
    exact hrows (hskip _ (getElem_mem hj) (h.admitted j hstop _ (hget hj) hrows))
  -- Otherwise none of the origins up to `stop` would have a row.
  have hstop : before.length ≤ stop := by
    by_contra hlt
    have hnone : bufferedBefore (stop + 1) (before ++ state :: after) = 0 := by
      unfold bufferedBefore
      rw [take_append_of_le_length (by omega), sum_eq_zero_iff]
      intro count hcount
      obtain ⟨other, hother, rfl⟩ := mem_map.mp hcount
      obtain ⟨j, hj, rfl⟩ := getElem_of_mem hother
      rw [length_take] at hj
      rw [getElem_take, hempty (by omega) (by omega), length_nil]
    rcases h.room with hroom | hlength
    · omega
    · simp only [length_append, length_cons] at hlength
      omega
  refine ⟨hstop, fun other hother => ?_⟩
  obtain ⟨j, hj, rfl⟩ := getElem_of_mem hother
  exact ⟨h.exhausted j (by omega) _ (hget hj), hempty hj (by omega)⟩

theorem Ready.pop (h : Ready admitted (room + 1) stop (before ++ state :: after))
    (hstop : before.length ≤ stop) (hrow : state.buffered.head? = some row) :
    Ready admitted room stop (before ++ popped state :: after) := by
  have hold : ∀ {j : Nat} {next}, (before ++ popped state :: after)[j]? = some next →
      ∃ old, (before ++ state :: after)[j]? = some old ∧ next.exhausted = old.exhausted ∧
        next.origin = old.origin ∧ (next.buffered ≠ [] → old.buffered ≠ []) := by
    intro j next hnext
    rcases lt_trichotomy j before.length with hlt | rfl | hgt
    · rw [getElem?_append_left hlt] at hnext ⊢
      exact ⟨next, hnext, rfl, rfl, id⟩
    · simp only [getElem?_append_right le_rfl, Nat.sub_self, getElem?_cons_zero,
        some.injEq] at hnext ⊢
      subst hnext
      refine ⟨state, rfl, rfl, rfl, fun hrows hnil => hrows ?_⟩
      simp [popped, hnil]
    · obtain ⟨gap, rfl⟩ : ∃ gap, j = before.length + (gap + 1) := ⟨j - before.length - 1, by omega⟩
      rw [getElem?_append_right (by omega), Nat.add_sub_cancel_left,
        getElem?_cons_succ] at hnext ⊢
      exact ⟨next, hnext, rfl, rfl, id⟩
  refine ⟨?_, ?_, ?_⟩
  · intro j hj next hnext
    obtain ⟨old, hget, hexhausted, _⟩ := hold hnext
    rw [hexhausted]
    exact h.exhausted j hj old hget
  · intro j hj next hnext hrows
    obtain ⟨old, hget, _, horigin, hrows'⟩ := hold hnext
    rw [horigin]
    exact h.admitted j hj old hget (hrows' hrows)
  · rcases h.room with hroom | hlength
    · left
      have hcount : ∀ other : OriginCursor T,
          bufferedBefore (stop + 1) (before ++ other :: after) =
            (before.map (·.buffered.length)).sum + (other.buffered.length +
              ((after.take (stop - before.length)).map (·.buffered.length)).sum) := by
        intro other
        obtain ⟨gap, rfl⟩ := Nat.exists_eq_add_of_le hstop
        unfold bufferedBefore
        rw [take_append, take_of_length_le (by omega),
          show before.length + gap + 1 - before.length = gap + 1 by omega, take_succ_cons,
          Nat.add_sub_cancel_left]
        simp
      have hlength : state.buffered.length = (popped state).buffered.length + 1 := by
        obtain ⟨rest, hrows⟩ : ∃ rest, state.buffered = row :: rest :=
          ⟨_, eq_cons_of_mem_head? hrow⟩
        simp [popped, hrows]
      rw [hcount] at hroom ⊢
      omega
    · right
      simpa using hlength

end

theorem mergeLoop_contents {tail : OriginCursor T → List T}
    (hpopped : ∀ state, tail (popped state) = tail state)
    (hexhausted : ∀ state, state.exhausted = true → tail state = [])
    {stop : Nat} (room : Nat) : ∀ origins : List (OriginCursor T), InLanes namespaceOf origins →
      Ready admitted room stop origins →
      (origins.flatMap fun state => state.buffered ++ tail state) =
        (mergeLoop (identityLess namespaceOf name) admitted room origins).1.map (·.2) ++
          (mergeLoop (identityLess namespaceOf name) admitted room origins).2.flatMap
            fun state => state.buffered ++ tail state := by
  induction room with
  | zero => exact fun origins _ _ => rfl
  | succ room ih =>
    intro origins hlanes hready
    cases hcandidates : candidates admitted origins with
    | nil =>
      unfold mergeLoop
      rw [hcandidates]
      rfl
    | cons first later =>
      have hpairwise : (candidates admitted origins).Pairwise fun a b =>
          heapLess (identityLess namespaceOf name) b a = false :=
        candidates_pairwise hlanes admitted
      rw [hcandidates, pairwise_cons] at hpairwise
      have hpop := popLeast_eq_head hpairwise.1
      rw [← hcandidates] at hpop
      obtain ⟨index, row⟩ := first
      obtain ⟨before, state, after, rfl, rfl, hrow, hskip⟩ := candidates_eq_cons hcandidates
      obtain ⟨hstop, hbefore⟩ := hready.before_empty hskip
      have hlater := ih _ hlanes.pop (hready.pop hstop hrow)
      have hdone : (before.flatMap fun state => state.buffered ++ tail state) = [] := by
        rw [flatMap_eq_nil_iff]
        intro other hother
        rw [(hbefore other hother).2, hexhausted other (hbefore other hother).1]
        rfl
      have hstate : state.buffered = row :: (popped state).buffered :=
        eq_cons_of_mem_head? hrow
      rw [flatMap_append, flatMap_cons, hdone, hpopped] at hlater
      rw [mergeLoop, hpop]
      dsimp only
      rw [modify_middle, flatMap_append, flatMap_cons, hdone, hstate]
      exact congrArg (cons row) hlater

end

end Sequential

end Kubepeep.Resources
