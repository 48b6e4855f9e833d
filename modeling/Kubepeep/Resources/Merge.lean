import Kubepeep.Resources.Collect

/-!
# What the merge moves

`mergeAuthorizedOriginPages` and `mergePreferredNamespace` move rows from the buffers of admitted
origins to the page, and change nothing else.
-/

open Nat List

namespace Kubepeep.Resources

variable {T : Type} (index : Nat)

def rowsOf (rows : List (Nat × T)) : List T :=
  rows.filterMap fun row => if row.1 = index then some row.2 else none

@[simp]
theorem rowsOf_nil : rowsOf index ([] : List (Nat × T)) = [] :=
  rfl

@[simp]
theorem rowsOf_cons_self (row : T) (rows : List (Nat × T)) :
    rowsOf index ((index, row) :: rows) = row :: rowsOf index rows := by
  simp [rowsOf]

structure Emitted (rows : List T) (before after : OriginCursor T) : Prop where
  origin : after.origin = before.origin
  continueToken : after.continueToken = before.continueToken
  exhausted : after.exhausted = before.exhausted
  rows : before.buffered.Perm (rows ++ after.buffered)

theorem Emitted.trans {first second : List T} {a b c : OriginCursor T} (h : Emitted first a b)
    (h' : Emitted second b c) : Emitted (first ++ second) a c where
  origin := h'.origin.trans h.origin
  continueToken := h'.continueToken.trans h.continueToken
  exhausted := h'.exhausted.trans h.exhausted
  rows := by
    rw [append_assoc]
    exact h.rows.trans (h'.rows.append_left first)

def EmittedAll (rows : List (Nat × T)) (before after : List (OriginCursor T)) : Prop :=
  after.length = before.length ∧ ∀ (index : Nat) b, before[index]? = some b →
    ∃ a, after[index]? = some a ∧ Emitted (rowsOf index rows) b a

theorem EmittedAll.trans {first second : List (Nat × T)} {a b c : List (OriginCursor T)}
    (h : EmittedAll first a b) (h' : EmittedAll second b c) : EmittedAll (first ++ second) a c := by
  refine ⟨h'.1.trans h.1, fun index x hx => ?_⟩
  obtain ⟨y, hy, hxy⟩ := h.2 index x hx
  obtain ⟨z, hz, hyz⟩ := h'.2 index y hy
  refine ⟨z, hz, ?_⟩
  rw [rowsOf, filterMap_append]
  exact hxy.trans hyz

variable {rows : List (Nat × T)} {before after : List (OriginCursor T)}

section

variable (h : EmittedAll rows before after)

include h

theorem EmittedAll.of_after {index : Nat} {a : OriginCursor T}
    (ha : after[index]? = some a) : ∃ b, before[index]? = some b ∧ a.origin = b.origin := by
  have hlt : index < before.length := h.1 ▸ (List.getElem?_eq_some_iff.mp ha).1
  obtain ⟨a', ha', hemitted⟩ := h.2 index _ (List.getElem?_eq_getElem hlt)
  rw [ha, Option.some.injEq] at ha'
  exact ⟨_, List.getElem?_eq_getElem hlt, ha' ▸ hemitted.origin⟩

theorem EmittedAll.map_eq {α : Type} {f : OriginCursor T → α}
    (hf : ∀ rows b a, Emitted rows b a → f a = f b) :
    after.map f = before.map f := by
  apply ext_getElem?
  intro index
  rw [getElem?_map, getElem?_map]
  cases hb : before[index]? with
  | none =>
    rw [getElem?_eq_none_iff] at hb
    rw [getElem?_eq_none (h.1.symm ▸ hb)]
  | some b =>
    obtain ⟨a, ha, hemitted⟩ := h.2 index b hb
    rw [ha, Option.map_some, Option.map_some, hf _ _ _ hemitted]

theorem EmittedAll.map_origin : after.map (·.origin) = before.map (·.origin) :=
  h.map_eq fun _ _ _ hemitted => hemitted.origin

end

theorem map_sorted_emitted (less : T → T → Bool) (origins : List (OriginCursor T)) :
    EmittedAll [] origins (origins.map fun state => state.sorted less) := by
  refine ⟨length_map _, fun index state hstate => ⟨state.sorted less, ?_, ?_⟩⟩
  · rw [getElem?_map, hstate, Option.map_some]
  · exact ⟨rfl, rfl, rfl, (perm_insertionSort _ _).symm⟩

variable {origins : List (OriginCursor T)} {admitted : String → Bool}

theorem mem_candidates {index : Nat} {row : T} (h : (index, row) ∈ candidates admitted origins) :
    ∃ state, origins[index]? = some state ∧ admitted state.origin.Key = true ∧
      ∃ rest, state.buffered = row :: rest := by
  obtain ⟨⟨state, i⟩, hmem, hif⟩ := mem_filterMap.mp h
  have hstate := mem_zipIdx_iff_getElem?.mp hmem
  dsimp only at hif
  split at hif
  · next hadmitted =>
    obtain ⟨first, hhead, heq⟩ := Option.map_eq_some_iff.mp hif
    obtain ⟨rfl, rfl⟩ := heq
    exact ⟨state, hstate, hadmitted, state.buffered.tail, (eq_cons_of_mem_head? hhead)⟩
  · cases hif

variable {less : T → T → Bool} {row : Nat × T}

theorem mem_of_popLeast (h : popLeast less rows = some row) : row ∈ rows := by
  cases rows with
  | nil => exact absurd h (by simp [popLeast])
  | cons first rest =>
    rw [popLeast, Option.some.injEq] at h
    subst h
    -- The least of a prefix of the rest is `first` or one of the rest.
    induction rest generalizing first with
    | nil => simp
    | cons second rest ih =>
      rw [foldl_cons]
      split
      · exact mem_cons_of_mem _ (ih second)
      · cases mem_cons.mp (ih first) with
        | inl heq =>
          rw [heq]
          exact mem_cons_self
        | inr hmem => exact mem_cons_of_mem _ (mem_cons_of_mem _ hmem)

theorem modify_tail_emitted {selected : Nat} {row : T}
    {state : OriginCursor T} (hstate : origins[selected]? = some state) {rest : List T}
    (hrows : state.buffered = row :: rest) :
    EmittedAll [(selected, row)] origins
      (origins.modify selected fun state => { state with buffered := state.buffered.tail }) := by
  refine ⟨length_modify .., fun index b hb => ?_⟩
  by_cases heq : selected = index
  · subst heq
    rw [hstate, Option.some.injEq] at hb
    subst hb
    refine ⟨{ state with buffered := state.buffered.tail }, by simp [hstate], rfl, rfl, rfl, ?_⟩
    simp [hrows]
  · refine ⟨b, by simp [heq, hb], rfl, rfl, rfl, ?_⟩
    simp [rowsOf, heq]

theorem mergeLoop_spec (less : T → T → Bool) (admitted : String → Bool) (room : Nat) :
    ∀ origins : List (OriginCursor T),
      EmittedAll (mergeLoop less admitted room origins).1 origins
        (mergeLoop less admitted room origins).2 ∧
      ∀ row ∈ (mergeLoop less admitted room origins).1, ∃ state,
        origins[row.1]? = some state ∧ admitted state.origin.Key = true := by
  induction room with
  | zero =>
    intro origins
    exact ⟨⟨rfl, fun index b hb => ⟨b, hb, rfl, rfl, rfl, .refl _⟩⟩, by simp [mergeLoop]⟩
  | succ room ih =>
    intro origins
    unfold mergeLoop
    split
    · exact ⟨⟨rfl, fun index b hb => ⟨b, hb, rfl, rfl, rfl, .refl _⟩⟩, by simp⟩
    · next selected row hpop =>
      obtain ⟨state, hstate, hadmitted, rest, hrows⟩ := mem_candidates (mem_of_popLeast hpop)
      have hfirst := modify_tail_emitted hstate hrows
      obtain ⟨hrest, hfrom⟩ := ih (origins.modify selected fun state =>
        { state with buffered := state.buffered.tail })
      refine ⟨hfirst.trans hrest, ?_⟩
      rw [forall_mem_cons]
      refine ⟨⟨state, hstate, hadmitted⟩, fun other hother => ?_⟩
      obtain ⟨after, hafter, hadmitted'⟩ := hfrom other hother
      obtain ⟨before, hbefore, horigin⟩ := hfirst.of_after hafter
      exact ⟨before, hbefore, horigin ▸ hadmitted'⟩

variable {allowed : String → Bool} {next : CompositeCursor T} {current : CompositeCursor T}
  {limit : Int}

theorem mergeAuthorizedOriginPages_spec
    (h : mergeAuthorizedOriginPages current [] limit less (some allowed) = .ok (rows, next)) :
    next.version = current.version ∧ EmittedAll rows current.origins next.origins ∧
      ∀ row ∈ rows, ∃ state, current.origins[row.1]? = some state ∧
        allowed state.origin.Key = true := by
  unfold mergeAuthorizedOriginPages at h
  split at h
  · cases h
  split at h
  · cases h
  obtain ⟨rfl, rfl⟩ := h
  have hsorted := map_sorted_emitted less current.origins
  obtain ⟨hemitted, hfrom⟩ := mergeLoop_spec less allowed limit.toNat
    (current.origins.map fun state => state.sorted less)
  refine ⟨rfl, hsorted.trans hemitted, fun row hrow => ?_⟩
  obtain ⟨after, hafter, hadmitted⟩ := hfrom row hrow
  obtain ⟨before, hbefore, horigin⟩ := hsorted.of_after hafter
  exact ⟨before, hbefore, horigin ▸ hadmitted⟩

variable {cursor : CompositeCursor T} {request : CollectionRequest T}

theorem mergePreferredNamespace_spec
    (h : mergePreferredNamespace cursor request allowed = .ok (rows, next)) :
    next.version = cursor.version ∧ EmittedAll rows cursor.origins next.origins ∧
      ∀ row ∈ rows, ∃ state, cursor.origins[row.1]? = some state ∧
        allowed state.origin.Key = true := by
  unfold mergePreferredNamespace at h
  split at h
  · exact mergeAuthorizedOriginPages_spec h
  · obtain ⟨⟨items, middle⟩, hfirst, h⟩ := except_bind_eq_ok h
    obtain ⟨hversion, hemitted, hfrom⟩ := mergeAuthorizedOriginPages_spec hfirst
    -- A preferred origin is an allowed one.
    have hpreferred : ∀ row ∈ items, ∃ state, cursor.origins[row.1]? = some state ∧
        allowed state.origin.Key = true := by
      intro row hrow
      obtain ⟨state, hstate, hany⟩ := hfrom row hrow
      obtain ⟨other, _, hother⟩ := any_eq_true.mp hany
      simp only [Bool.and_eq_true, beq_iff_eq] at hother
      exact ⟨state, hstate, hother.2 ▸ hother.1.2⟩
    dsimp only at h
    split at h
    · obtain ⟨rfl, rfl⟩ := h
      exact ⟨hversion, hemitted, hpreferred⟩
    · obtain ⟨⟨rest, last⟩, hsecond, h⟩ := except_bind_eq_ok h
      obtain ⟨rfl, rfl⟩ := h
      obtain ⟨hversion', hemitted', hfrom'⟩ := mergeAuthorizedOriginPages_spec hsecond
      refine ⟨hversion'.trans hversion, hemitted.trans hemitted', ?_⟩
      rw [forall_mem_append]
      refine ⟨hpreferred, fun row hrow => ?_⟩
      obtain ⟨after, hafter, hadmitted⟩ := hfrom' row hrow
      obtain ⟨before, hbefore, horigin⟩ := hemitted.of_after hafter
      exact ⟨before, hbefore, horigin ▸ hadmitted⟩

/-! ## A merge always succeeds -/

theorem length_mergeLoop_le (less : T → T → Bool) (admitted : String → Bool) (room : Nat) :
    ∀ origins : List (OriginCursor T), (mergeLoop less admitted room origins).1.length ≤ room := by
  induction room with
  | zero => exact fun _ => le_rfl
  | succ room ih =>
    intro origins
    unfold mergeLoop
    split
    · exact zero_le _
    · exact succ_le_succ (ih _)

theorem mergeAuthorizedOriginPages_ok (current : CompositeCursor T)
    (hmin : 1 ≤ limit) (hmax : limit ≤ MaximumListLimit) (less : T → T → Bool)
    (allowed : String → Bool) : ∃ rows next,
      mergeAuthorizedOriginPages current [] limit less (some allowed) = .ok (rows, next) ∧
        (rows.length : Int) ≤ limit := by
  unfold mergeAuthorizedOriginPages
  rw [if_neg (by omega), if_neg (by simp)]
  refine ⟨_, _, rfl, ?_⟩
  have := length_mergeLoop_le less allowed limit.toNat
    (current.origins.map fun state => state.sorted less)
  simp only [find?_nil, Option.getD_some]
  omega

theorem mergePreferredNamespace_ok (cursor : CompositeCursor T) (request : CollectionRequest T)
    (hmin : 1 ≤ request.options.limit) (hmax : request.options.limit ≤ MaximumListLimit)
    (allowed : String → Bool) :
    ∃ rows next, mergePreferredNamespace cursor request allowed = .ok (rows, next) := by
  unfold mergePreferredNamespace
  split
  · obtain ⟨rows, next, h, _⟩ := mergeAuthorizedOriginPages_ok cursor hmin hmax request.less allowed
    exact ⟨rows, next, h⟩
  · dsimp only
    obtain ⟨items, middle, hfirst, hlength⟩ :=
      mergeAuthorizedOriginPages_ok cursor hmin hmax request.less fun key =>
        cursor.origins.any fun state =>
          state.origin.namespaceName == request.preferredNamespace && allowed state.origin.Key &&
            state.origin.Key == key
    rw [hfirst]
    by_cases hfull : (items.length : Int) = request.options.limit
    · exact ⟨items, middle, by simp [bind, Except.bind, pure, Except.pure, hfull]⟩
    · obtain ⟨rest, last, hsecond, _⟩ := mergeAuthorizedOriginPages_ok middle
        (show 1 ≤ request.options.limit - items.length by omega) (by omega) request.less allowed
      exact ⟨items ++ rest, last, by simp [bind, Except.bind, pure, Except.pure, hfull, hsecond]⟩

/-! ## A page is not empty -/

def Offers (admitted : String → Bool) (origins : List (OriginCursor T)) : Prop :=
  ∃ state ∈ origins, admitted state.origin.Key = true ∧ state.buffered ≠ []

theorem candidates_ne_nil (h : Offers admitted origins) : candidates admitted origins ≠ [] := by
  obtain ⟨state, hmem, hadmitted, hrows⟩ := h
  obtain ⟨index, hindex⟩ := mem_iff_getElem?.mp hmem
  cases hbuffered : state.buffered with
  | nil => exact absurd hbuffered hrows
  | cons row rest =>
    have hcandidate : (index, row) ∈ candidates admitted origins :=
      mem_filterMap.mpr ⟨(state, index), mem_zipIdx_iff_getElem?.mpr hindex, by
        simp [hadmitted, hbuffered]⟩
    exact ne_nil_of_mem hcandidate

/-- A loop that leaves room has run out of rows. -/
theorem mergeLoop_drained {room : Nat} : ∀ {origins : List (OriginCursor T)},
    (mergeLoop less admitted room origins).1.length < room →
      ¬ Offers admitted (mergeLoop less admitted room origins).2 := by
  induction room with
  | zero => exact fun h => absurd h (not_lt_zero _)
  | succ room ih =>
    intro origins hroom
    unfold mergeLoop at hroom ⊢
    split at hroom
    · next hpop =>
      intro hoffers
      have hne := candidates_ne_nil hoffers
      cases hcandidates : candidates admitted origins with
      | nil => exact hne hcandidates
      | cons first rest => simp [hcandidates, popLeast] at hpop
    · exact ih (lt_of_succ_lt_succ hroom)

theorem EmittedAll.offers (h : EmittedAll [] before after) (hoffers : Offers admitted before) :
    Offers admitted after := by
  obtain ⟨state, hmem, hadmitted, hrows⟩ := hoffers
  obtain ⟨index, hindex⟩ := mem_iff_getElem?.mp hmem
  obtain ⟨a, ha, hemitted⟩ := h.2 index state hindex
  refine ⟨a, mem_of_getElem? ha, hemitted.origin ▸ hadmitted, fun hnil => hrows ?_⟩
  have hperm := hemitted.rows
  rw [rowsOf_nil, hnil] at hperm
  exact hperm.eq_nil

theorem mergeAuthorizedOriginPages_drained
    (h : mergeAuthorizedOriginPages current [] limit less (some allowed) = .ok (rows, next))
    (hroom : (rows.length : Int) < limit) : ¬ Offers allowed next.origins := by
  unfold mergeAuthorizedOriginPages at h
  split at h
  · cases h
  split at h
  · cases h
  obtain ⟨rfl, rfl⟩ := h
  exact mergeLoop_drained (by simp only [find?_nil, Option.getD_some] at hroom ⊢; omega)

theorem mergePreferredNamespace_drained
    (h : mergePreferredNamespace cursor request allowed = .ok (rows, next))
    (hroom : (rows.length : Int) < request.options.limit) : ¬ Offers allowed next.origins := by
  unfold mergePreferredNamespace at h
  split at h
  · exact mergeAuthorizedOriginPages_drained h hroom
  · obtain ⟨⟨items, middle⟩, _, h⟩ := except_bind_eq_ok h
    dsimp only at h
    split at h
    · obtain ⟨rfl, rfl⟩ := h
      omega
    · obtain ⟨⟨rest, last⟩, hsecond, h⟩ := except_bind_eq_ok h
      obtain ⟨rfl, rfl⟩ := h
      rw [length_append] at hroom
      exact mergeAuthorizedOriginPages_drained hsecond (by dsimp only at hroom; omega)

theorem mergePreferredNamespace_ne_nil (hlimit : 1 ≤ request.options.limit)
    (h : mergePreferredNamespace cursor request allowed = .ok (rows, next))
    (hoffers : Offers allowed cursor.origins) : rows ≠ [] := by
  rintro rfl
  exact mergePreferredNamespace_drained h (by rw [length_nil]; omega)
    ((mergePreferredNamespace_spec h).2.1.offers hoffers)

/-! ## All origins together -/

def laterRows (rows : List (Nat × T)) : List (Nat × T) :=
  rows.filterMap fun row =>
    match row.1 with
    | 0 => none
    | index + 1 => some (index, row.2)

theorem rowsOf_laterRows (rows : List (Nat × T)) :
    rowsOf index (laterRows rows) = rowsOf (index + 1) rows := by
  unfold rowsOf laterRows
  rw [filterMap_filterMap]
  congr 1
  ext1 row
  obtain ⟨_ | place, row⟩ := row <;> simp

theorem mem_of_mem_laterRows (h : row ∈ laterRows rows) :
    (row.1 + 1, row.2) ∈ rows := by
  obtain ⟨⟨_ | place, row'⟩, hmem, heq⟩ := mem_filterMap.mp h
  · cases heq
  · exact Option.some.inj heq ▸ hmem

theorem map_snd_perm_rowsOf_zero (rows : List (Nat × T)) :
    (rows.map (·.2)).Perm (rowsOf 0 rows ++ (laterRows rows).map (·.2)) := by
  induction rows with
  | nil => rfl
  | cons row rows ih =>
    obtain ⟨_ | place, row⟩ := row
    · simpa [rowsOf, laterRows] using ih
    · exact (ih.cons row).trans perm_middle.symm

theorem EmittedAll.contents {tail : OriginCursor T → List T}
    (htail : ∀ rows b a, Emitted rows b a → tail a = tail b) (before : List (OriginCursor T)) :
    ∀ rows : List (Nat × T), ∀ after, EmittedAll rows before after →
      (∀ row ∈ rows, row.1 < before.length) →
      (before.flatMap fun state => state.buffered ++ tail state).Perm
        (rows.map (·.2) ++ after.flatMap fun state => state.buffered ++ tail state) := by
  induction before with
  | nil =>
    intro rows after h hvalid
    have hrows : rows = [] := by
      cases rows with
      | nil => rfl
      | cons row rows => exact absurd (hvalid row mem_cons_self) (not_lt_zero _)
    rw [hrows, length_eq_zero_iff.mp h.1]
    rfl
  | cons first rest ih =>
    intro rows after h hvalid
    obtain ⟨a, ha, hfirst⟩ := h.2 0 first rfl
    cases after with
    | nil => cases ha
    | cons head later =>
      obtain rfl : head = a := Option.some.inj ha
      have hlater : EmittedAll (laterRows rows) rest later := by
        refine ⟨succ_inj.mp h.1, fun index b hb => ?_⟩
        rw [rowsOf_laterRows]
        exact h.2 (index + 1) b hb
      have hvalid' : ∀ row ∈ laterRows rows, row.1 < rest.length :=
        fun row hrow => lt_of_succ_lt_succ (hvalid _ (mem_of_mem_laterRows hrow))
      rw [flatMap_cons, flatMap_cons, htail _ _ _ hfirst]
      calc (first.buffered ++ tail first) ++
            rest.flatMap (fun state => state.buffered ++ tail state)
        _ ~ (rowsOf 0 rows ++ head.buffered ++ tail first) ++
            ((laterRows rows).map (·.2) ++
              later.flatMap fun state => state.buffered ++ tail state) :=
          (hfirst.rows.append_right _).append (ih (laterRows rows) later hlater hvalid')
        _ ~ (rowsOf 0 rows ++ (laterRows rows).map (·.2)) ++ ((head.buffered ++ tail first) ++
              later.flatMap fun state => state.buffered ++ tail state) := by
          simp only [append_assoc]
          apply Perm.append_left
          rw [← append_assoc, ← append_assoc head.buffered]
          exact perm_append_comm_assoc _ _ _
        _ ~ rows.map (·.2) ++ ((head.buffered ++ tail first) ++
              later.flatMap fun state => state.buffered ++ tail state) :=
          (map_snd_perm_rowsOf_zero rows).symm.append_right _

/-! ## Valid cursors -/

structure ValidState (state : OriginCursor T) (canonical : Origin) : Prop where
  version : state.origin.version ≠ ""
  resource : state.origin.resource ≠ ""
  key : state.origin.Key = canonical.Key
  token : state.continueToken.utf8ByteSize ≤ MaximumCursorBytes
  exhausted : state.exhausted = true → state.continueToken = ""

theorem validateOrigins_eq_ok_iff (pairs : List (OriginCursor T × Origin)) :
    ∀ seen, validateOrigins seen pairs = .ok () ↔
      (∀ pair ∈ pairs, ValidState pair.1 pair.2 ∧ pair.1.origin.Key ∉ seen) ∧
      (pairs.map fun pair => pair.1.origin.Key).Nodup := by
  induction pairs with
  | nil => simp [validateOrigins]
  | cons pair rest ih =>
    obtain ⟨state, canonical⟩ := pair
    intro seen
    have hvalid : ValidState state canonical ∧ state.origin.Key ∉ seen ↔
        ¬ (state.origin.version = "" ∨ state.origin.resource = "") ∧
        ¬ (state.origin.Key ∈ seen ∨ state.origin.Key ≠ canonical.Key) ∧
        ¬ state.continueToken.utf8ByteSize > MaximumCursorBytes ∧
        ¬ (state.exhausted = true ∧ state.continueToken ≠ "") := by
      constructor
      · intro ⟨h, hseen⟩
        refine ⟨not_or.mpr ⟨h.version, h.resource⟩, not_or.mpr ⟨hseen, not_not.mpr h.key⟩,
          not_lt.mpr h.token, fun hboth => hboth.2 (h.exhausted hboth.1)⟩
      · intro ⟨h₁, h₂, h₃, h₄⟩
        rw [not_or] at h₁ h₂
        exact ⟨⟨h₁.1, h₁.2, not_not.mp h₂.2, not_lt.mp h₃, fun hexhausted =>
          not_not.mp fun htoken => h₄ ⟨hexhausted, htoken⟩⟩, h₂.1⟩
    rw [forall_mem_cons, map_cons, nodup_cons, hvalid]
    unfold validateOrigins
    split
    · next h₁ => simp [h₁]
    split
    · next h₂ => simp [h₂]
    split
    · next h₃ => simp [h₃]
    split
    · next h₄ => simp [h₄]
    next h₁ h₂ h₃ h₄ =>
    rw [ih]
    -- The tail has not seen this key: it is not among the tail's keys.
    simp only [h₁, h₂, h₃, h₄, not_false_eq_true, true_and, mem_cons, not_or, mem_map,
      not_exists, not_and]
    constructor
    · intro ⟨hrest, hnodup⟩
      exact ⟨fun other hother => ⟨(hrest other hother).1, (hrest other hother).2.2⟩,
        fun other hother => (hrest other hother).2.1, hnodup⟩
    · intro ⟨hrest, hne, hnodup⟩
      exact ⟨fun other hother => ⟨(hrest other hother).1, hne other hother,
        (hrest other hother).2⟩, hnodup⟩

theorem canonicalOrigins_perm (origins : List Origin) :
    (canonicalOrigins origins).Perm origins :=
  perm_insertionSort _ _

theorem canonicalOrigins_canonicalOrigins (origins : List Origin) :
    canonicalOrigins (canonicalOrigins origins) = canonicalOrigins origins := by
  unfold canonicalOrigins
  have htotal : Std.Total fun a b : Origin => a.Key ≤ b.Key := ⟨fun _ _ => String.le_total ..⟩
  have htrans : IsTrans Origin fun a b => a.Key ≤ b.Key := ⟨fun _ _ _ => String.le_trans⟩
  exact (pairwise_insertionSort _ _).insertionSort_eq

theorem validate_eq_ok_iff {expected : List Origin} :
    cursor.Validate (canonicalOrigins expected) = .ok () ↔
      cursor.version = 1 ∧ cursor.origins ≠ [] ∧
      cursor.origins.length = (canonicalOrigins expected).length ∧
      (∀ (index : Nat) state origin, cursor.origins[index]? = some state →
        (canonicalOrigins expected)[index]? = some origin → ValidState state origin) ∧
      (cursor.origins.map (·.origin.Key)).Nodup := by
  unfold CompositeCursor.Validate
  split
  · next h => simp [h]
  split
  · next h =>
    simp only [reduceCtorEq, false_iff]
    intro ⟨_, hne, hlength, _⟩
    cases h with
    | inl h => exact hne (length_eq_zero_iff.mp h)
    | inr h => exact h hlength
  next hversion hlength =>
  push Not at hversion hlength
  rw [canonicalOrigins_canonicalOrigins, validateOrigins_eq_ok_iff]
  have hkeys :
      (cursor.origins.zip (canonicalOrigins expected)).map (fun pair => pair.1.origin.Key) =
      cursor.origins.map (·.origin.Key) := by
    change (cursor.origins.zip (canonicalOrigins expected)).map
      ((fun state : OriginCursor T => state.origin.Key) ∘ Prod.fst) = _
    rw [← map_map, map_fst_zip hlength.2.le]
  have hpairs : (∀ pair ∈ cursor.origins.zip (canonicalOrigins expected),
      ValidState pair.1 pair.2 ∧ pair.1.origin.Key ∉ []) ↔
      ∀ (index : Nat) state origin, cursor.origins[index]? = some state →
        (canonicalOrigins expected)[index]? = some origin → ValidState state origin := by
    constructor
    · intro h index state origin hstate horigin
      exact (h (state, origin) (mem_iff_getElem?.mpr
        ⟨index, getElem?_zip_eq_some.mpr ⟨hstate, horigin⟩⟩)).1
    · intro h pair hpair
      obtain ⟨index, hindex⟩ := mem_iff_getElem?.mp hpair
      obtain ⟨hstate, horigin⟩ := getElem?_zip_eq_some.mp hindex
      exact ⟨h index _ _ hstate horigin, by simp⟩
  have hne : cursor.origins ≠ [] := fun h => hlength.1 (by rw [h, length_nil])
  rw [hkeys, hpairs]
  simp only [hversion, hne, hlength.2, ne_eq, not_false_eq_true, true_and]

end Kubepeep.Resources
