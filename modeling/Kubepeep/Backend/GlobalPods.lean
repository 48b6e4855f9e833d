import Kubepeep.Resources.Pagination

/-!
# One cluster-wide LIST for an explicit scope

`listGlobalPodPageInScope` (`internal/integration/kubernetesruntime/resources_backend.go`) reads the
Pods of all namespaces and keeps those in scope.  It stops early once a raw page ends beyond the
greatest selected namespace.  The API server orders Pods by `namespace/name`, where `-` comes before
`/`: `shop-dev/api` is listed before `shop/api`, although `shop` is the smaller namespace.
-/

open List Kubepeep.Effect Kubepeep.Resources

namespace Kubepeep.Backend

variable {σ T : Type}

/-- What `collectResource` hands to `Collect` as its lister. -/
abbrev Lister (σ T : Type) : Type :=
  PageRequest → StateM σ (OriginPage T × Option ReadError)

/-! ## The scan -/

/-- `for namespace := range allowed`; the order of the map does not matter. -/
def maxNamespace (allowed : List String) : String :=
  allowed.foldl (fun greatest name => if name > greatest then name else greatest) ""

/-- The loop over the items of a raw page: the kept items, the last namespace, and whether every
item was a Pod.  `pod` is the type assertion, with the namespace of the Pod. -/
def scopeItems (pod : T → Option String) (allowed : List String) :
    List T → String → List T × String × Bool
  | [], lastNamespace => ([], lastNamespace, true)
  | item :: rest, lastNamespace =>
    match pod item with
    | none => ([], lastNamespace, false)
    | some name =>
      let (kept, lastNamespace, valid) := scopeItems pod allowed rest name
      (if name ∈ allowed then item :: kept else kept, lastNamespace, valid)

def invalidItem : ReadError :=
  domainError .CodeClusterUnavailable "The global Pod list returned an invalid item."

/-- `for range 5`, with the iterations that are left. -/
def scopeLoop (contextErr : StateM σ (Option ReadError)) (list : Lister σ T)
    (pod : T → Option String) (allowed : List String) (pageLimit : Int) :
    Nat → PageRequest → OriginPage T → StateM σ (OriginPage T × Option ReadError)
  | 0, _, result => pure (result, none)
  | left + 1, next, result => do
    match ← contextErr with
    | some err => return (result, some err)
    | none =>
      match ← list next with
      | (_, some err) => return (result, some err)
      | (fetched, none) =>
        let resourceVersion :=
          if result.resourceVersion = "" then fetched.resourceVersion else result.resourceVersion
        let (kept, lastNamespace, valid) := scopeItems pod allowed fetched.items ""
        let result := { result with items := result.items ++ kept, resourceVersion }
        if valid = false then
          return (result, some invalidItem)
        -- Native Pod LIST order is taken to be the order of the namespaces.
        else if lastNamespace > maxNamespace allowed then
          return ({ result with continueToken := "" }, none)
        else
          let result := { result with continueToken := fetched.continueToken }
          let received : Int := result.items.length
          if result.continueToken = "" ∨ received > pageLimit ∨
              received ≥ pageLimit ∧ lastNamespace < maxNamespace allowed then
            return (result, none)
          else
            -- A full page at the last namespace needs a one-item lookahead.
            let limit := if received ≥ pageLimit then 1 else pageLimit
            scopeLoop contextErr list pod allowed pageLimit left
              { next with continueToken := result.continueToken, limit } result

def listGlobalPodPageInScope (contextErr : StateM σ (Option ReadError)) (list : Lister σ T)
    (pod : T → Option String) (allowed : List String) (page : PageRequest) :
    StateM σ (OriginPage T × Option ReadError) :=
  scopeLoop contextErr list pod allowed page.limit 5 page ⟨page.origin, [], "", ""⟩

/-! ## What one call reads -/

variable (pod : T → Option String)

def inScope (allowed : List String) (item : T) : Bool :=
  (pod item).any (· ∈ allowed)

def lastNamespace (items : List T) : String :=
  ((items.getLast?).bind pod).getD ""

/-- A raw page that ends beyond the greatest allowed namespace. -/
def passes (allowed : List String) (items : List T) : Bool :=
  lastNamespace pod items > maxNamespace allowed

variable {items : List T}

theorem scopeItems_eq {pod : T → Option String} (allowed : List String)
    (hpods : ∀ item ∈ items, (pod item).isSome) : ∀ last,
    scopeItems pod allowed items last =
      (items.filter (inScope pod allowed), ((items.getLast?).bind pod).getD last, true) := by
  induction items with
  | nil => intro last; rfl
  | cons item rest ih =>
    intro last
    rw [forall_mem_cons] at hpods
    cases hpod : pod item with
    | none => simp [hpod] at hpods
    | some name =>
      have hrest := ih hpods.2 name
      have hlast : ((item :: rest).getLast?.bind pod).getD last =
          (rest.getLast?.bind pod).getD name := by
        cases rest with
        | nil => simp [hpod]
        | cons next rest =>
          -- The last item is a Pod, so neither default is used.
          have hmem : (next :: rest).getLast (by simp) ∈ next :: rest := getLast_mem _
          have hsome := hpods.2 _ hmem
          rw [getLast?_cons_cons, getLast?_eq_getLast_of_ne_nil (by simp)]
          cases hcase : pod ((next :: rest).getLast (by simp)) with
          | none => simp [hcase] at hsome
          | some other => simp [hcase]
      simp only [scopeItems, hpod, hrest, hlast]
      by_cases hallowed : name ∈ allowed
      · simp [hallowed, inScope, hpod]
      · simp [hallowed, inScope, hpod]

variable (list : Lister σ T) (pod : T → Option String) (allowed : List String) (page : PageRequest)

/-- `page` is answered at `token`, with its limit or as a lookahead, by `fetched`. -/
def Answer (token : String) (fetched : OriginPage T) : Prop :=
  ∃ limit s, (limit = page.limit ∨ limit = 1) ∧
    ((list { page with continueToken := token, limit }).run s).1 = (fetched, none)

/-- A call that starts at a token keeps these items and reports that continuation. -/
inductive Scan : String → List T → String → Prop where
  | last {token : String} {fetched : OriginPage T} : Answer list page token fetched →
    Scan token (fetched.items.filter (inScope pod allowed))
      (if passes pod allowed fetched.items then "" else fetched.continueToken)
  | more {token next : String} {fetched : OriginPage T} {items : List T} :
    Answer list page token fetched → passes pod allowed fetched.items = false →
    fetched.continueToken ≠ "" → Scan fetched.continueToken items next →
    Scan token (fetched.items.filter (inScope pod allowed) ++ items) next

/-- Every token with `I` is answered with Pods and leads to a token with `I`. -/
def Reliable (I : String → Prop) : Prop :=
  ∀ token limit s, I token → limit = page.limit ∨ limit = 1 →
    ∃ fetched, ((list { page with continueToken := token, limit }).run s).1 = (fetched, none) ∧
      (∀ item ∈ fetched.items, (pod item).isSome) ∧
      (fetched.continueToken ≠ "" → I fetched.continueToken)

variable {list pod page}

variable {contextErr : StateM σ (Option ReadError)} {I : String → Prop}

/-- By induction on the iterations: each reads one more raw page. -/
theorem scopeLoop_spec (hcontext : Always contextErr fun err => err = none)
    (h : Reliable list pod page I) (left : Nat) :
    ∀ token limit (result : OriginPage T), I token → limit = page.limit ∨ limit = 1 →
    Always (scopeLoop contextErr list pod allowed page.limit left
      { page with continueToken := token, limit } result) fun (out, err) =>
      err = none ∧ out.origin = result.origin ∧
      (left = 0 ∧ out = result ∨ (out.continueToken ≠ "" → I out.continueToken) ∧
        ∃ items, Scan list pod allowed page token items out.continueToken ∧
          out.items = result.items ++ items) := by
  induction left with
  | zero =>
    intro token limit result _ _
    exact always_pure ⟨rfl, rfl, .inl ⟨rfl, rfl⟩⟩
  | succ left ih =>
    intro token limit result hI hlimit
    unfold scopeLoop
    refine always_bind hcontext fun _ hnone => ?_
    subst hnone
    refine always_bind (always_run _) fun answer ⟨s, hanswer⟩ => ?_
    obtain ⟨fetched, hfetched, hpods, hnext⟩ := h token limit s hI hlimit
    rw [hfetched] at hanswer
    subst hanswer
    have hread : Answer list page token fetched := ⟨limit, s, hlimit, hfetched⟩
    have hlast : Scan list pod allowed page token _ _ := .last hread
    simp only [scopeItems_eq allowed hpods]
    rw [if_neg (by simp)]
    by_cases hpasses : passes pod allowed fetched.items = true
    · rw [if_pos (by simpa [passes, lastNamespace] using hpasses)]
      rw [if_pos hpasses] at hlast
      exact always_pure ⟨rfl, rfl, .inr ⟨by simp, _, hlast, rfl⟩⟩
    rw [if_neg (by simpa [passes, lastNamespace] using hpasses)]
    rw [if_neg hpasses] at hlast
    split
    · exact always_pure ⟨rfl, rfl, .inr ⟨hnext, _, hlast, rfl⟩⟩
    -- The next iteration continues where this raw page ended.
    · next hgo =>
      have hmore : fetched.continueToken ≠ "" := fun hempty => hgo (.inl hempty)
      have hlimit' : ∀ received : Int,
          (if received ≥ page.limit then 1 else page.limit) = page.limit ∨
          (if received ≥ page.limit then 1 else page.limit) = 1 := by
        intro received
        split
        · exact .inr rfl
        · exact .inl rfl
      refine (ih fetched.continueToken _ _ (hnext hmore) (hlimit' _)).mono fun (out, err) hout => ?_
      refine ⟨hout.1, hout.2.1, .inr ?_⟩
      rcases hout.2.2 with hstop | hscan
      · rw [hstop.2]
        exact ⟨hnext, _, hlast, rfl⟩
      · obtain ⟨hI', items, hscan, hitems⟩ := hscan
        refine ⟨hI', _, Scan.more hread (by simpa using hpasses) hmore hscan, ?_⟩
        rw [hitems, append_assoc]

variable {token : String}

theorem listGlobalPodPageInScope_spec (hcontext : Always contextErr fun err => err = none)
    (h : Reliable list pod page I) (hI : I token) :
    Always (listGlobalPodPageInScope contextErr list pod allowed
      { page with continueToken := token }) fun (out, err) =>
      err = none ∧ out.origin = page.origin ∧ (out.continueToken ≠ "" → I out.continueToken) ∧
      Scan list pod allowed page token out.items out.continueToken := by
  refine (scopeLoop_spec allowed hcontext h 5 token page.limit ⟨page.origin, [], "", ""⟩ hI
    (.inl rfl)).mono fun (out, err) hout => ⟨hout.1, hout.2.1, ?_⟩
  rcases hout.2.2 with hstop | hscan
  · exact absurd hstop.1 (by decide)
  · obtain ⟨hI', items, hscan, hitems⟩ := hscan
    exact ⟨hI', hitems ▸ hscan⟩

/-! ## Draining a chunked LIST -/

variable (list page) in
/-- The lister serves the Pods that are `left` at a token in chunks of the shape `P`, which may
depend on the limit it is asked for; the number bounds the chunks after the first. -/
def ServesLeft (P : List T → Prop) (left : Nat → String → List T → Prop) : Prop :=
  ∀ chunks token pods, left chunks token pods → ∀ limit s, ∃ fetched rest,
    ((list { page with continueToken := token, limit }).run s).1 = (fetched, none) ∧
      P fetched.items ∧ pods = fetched.items ++ rest ∧
      (fetched.continueToken = "" ∧ rest = [] ∨
        fetched.continueToken ≠ "" ∧ ∃ fewer < chunks, left fewer fetched.continueToken rest)

variable (list page) in
/-- A LIST without faults: these Pods in this order, under any native chunking. -/
def Serves (chunks : Nat) (pods : List T) : Prop :=
  ∃ left, ServesLeft list page (fun _ => True) left ∧ left chunks "" pods

variable (pod) in
/-- What is kept of a list of Pods that is read in chunks of the shape `P`, up to the first chunk
that ends beyond the scope. -/
inductive KeptOf (P : List T → Prop) : List T → List T → Prop where
  | last {chunk : List T} : P chunk → KeptOf P chunk (chunk.filter (inScope pod allowed))
  | stop {chunk rest : List T} : P chunk → passes pod allowed chunk = true →
    KeptOf P (chunk ++ rest) (chunk.filter (inScope pod allowed))
  | more {chunk rest items : List T} : P chunk → passes pod allowed chunk = false →
    KeptOf P rest items → KeptOf P (chunk ++ rest) (chunk.filter (inScope pod allowed) ++ items)

variable {P : List T → Prop} {left : Nat → String → List T → Prop} {pods : List T} {chunks : Nat}

variable (left) in
def Issued (pod : T → Option String) (token : String) : Prop :=
  ∃ chunks pods, left chunks token pods ∧ ∀ item ∈ pods, (pod item).isSome

theorem ServesLeft.reliable (hserves : ServesLeft list page P left) :
    Reliable list pod page (Issued left pod) := by
  intro token limit s ⟨chunks, pods, hleft, hpods⟩ _
  obtain ⟨fetched, rest, hrun, _, rfl, hrest⟩ := hserves _ _ _ hleft limit s
  refine ⟨fetched, hrun, fun item hmem => hpods item (mem_append_left _ hmem), fun hmore => ?_⟩
  obtain ⟨_, fewer, _, hnext⟩ := hrest.resolve_left fun hend => hmore hend.1
  exact ⟨fewer, rest, hnext, fun item hmem => hpods item (mem_append_right _ hmem)⟩

theorem Answer.served (hserves : ServesLeft list page P left) {fetched : OriginPage T}
    (h : Answer list page token fetched) (hleft : left chunks token pods) : ∃ rest,
      P fetched.items ∧ pods = fetched.items ++ rest ∧
      (fetched.continueToken = "" ∧ rest = [] ∨
        fetched.continueToken ≠ "" ∧ ∃ fewer < chunks, left fewer fetched.continueToken rest) := by
  obtain ⟨limit, s, _, hrun⟩ := h
  obtain ⟨other, rest, hrun', hserved⟩ := hserves _ _ _ hleft limit s
  obtain rfl : fetched = other := congrArg Prod.fst (hrun.symm.trans hrun')
  exact ⟨rest, hserved⟩

/-- One call either ends the reading of the Pods, or leaves some of them for the next one. -/
theorem Scan.keptOf (hserves : ServesLeft list page P left) {token next : String}
    (h : Scan list pod allowed page token items next) : ∀ {chunks : Nat} {pods : List T},
      left chunks token pods →
      next = "" ∧ KeptOf pod allowed P pods items ∨
      next ≠ "" ∧ ∃ fewer < chunks, ∃ rest, left fewer next rest ∧ rest <:+ pods ∧
        ∀ later, KeptOf pod allowed P rest later → KeptOf pod allowed P pods (items ++ later) := by
  induction h with
  | @last token fetched hanswer =>
    intro chunks pods hleft
    obtain ⟨rest, hP, rfl, hrest⟩ := hanswer.served hserves hleft
    by_cases hpasses : passes pod allowed fetched.items = true
    · rw [if_pos hpasses]
      exact .inl ⟨rfl, .stop hP hpasses⟩
    rw [if_neg hpasses]
    rcases hrest with ⟨hend, rfl⟩ | ⟨hmore, fewer, hfewer, hnext⟩
    · rw [append_nil]
      exact .inl ⟨hend, .last hP⟩
    · exact .inr ⟨hmore, fewer, hfewer, rest, hnext, suffix_append _ _,
        fun later => .more hP (by simpa using hpasses)⟩
  | @more token next fetched items hanswer hpasses hmore _ ih =>
    intro chunks pods hleft
    obtain ⟨rest, hP, rfl, hrest⟩ := hanswer.served hserves hleft
    obtain ⟨_, fewer, hfewer, hnext⟩ := hrest.resolve_left fun hend => hmore hend.1
    rcases ih hnext with ⟨hend, hreads⟩ | ⟨hnonempty, less, hless, later, hlater, hsuffix, hall⟩
    · exact .inl ⟨hend, .more hP hpasses hreads⟩
    · refine .inr ⟨hnonempty, less, hless.trans hfewer, later, hlater,
        hsuffix.trans (suffix_append _ _), fun kept hkept => ?_⟩
      rw [append_assoc]
      exact .more hP hpasses (hall kept hkept)

/-- Call `listGlobalPodPageInScope` until it reports no continuation; at most `calls` times. -/
def drainInScope (contextErr : StateM σ (Option ReadError)) (list : Lister σ T)
    (pod : T → Option String) (allowed : List String) :
    Nat → PageRequest → Effect σ Halt (List T)
  | 0, _ => throw .unfinished
  | calls + 1, page => do
    match ← listGlobalPodPageInScope contextErr list pod allowed page with
    | (_, some err) => throw (.failed err)
    | (result, none) =>
      if result.continueToken = "" then
        return result.items
      else
        let rest ← drainInScope contextErr list pod allowed calls
          { page with continueToken := result.continueToken }
        return result.items ++ rest

theorem drainInScope_spec (hserves : ServesLeft list page P left)
    (hcontext : Always contextErr fun err => err = none) (calls : Nat) :
    ∀ {token : String} {chunks : Nat} {pods : List T}, left chunks token pods →
      (∀ item ∈ pods, (pod item).isSome) → chunks < calls →
      Sat False
        (drainInScope contextErr list pod allowed calls { page with continueToken := token })
        (KeptOf pod allowed P pods) := by
  induction calls with
  | zero => exact fun _ _ hcalls => absurd hcalls (Nat.not_lt_zero _)
  | succ calls ih =>
    intro token chunks pods hleft hpods hcalls
    unfold drainInScope
    refine sat_bind (sat_lift (listGlobalPodPageInScope_spec allowed hcontext hserves.reliable
      ⟨chunks, pods, hleft, hpods⟩)) fun (out, err) hout => ?_
    obtain ⟨rfl, _, _, hscan⟩ := hout
    rcases hscan.keptOf allowed hserves hleft with
      ⟨hend, hreads⟩ | ⟨hmore, fewer, hfewer, rest, hnext, hsuffix, hall⟩
    · simp only [hend, if_true]
      exact sat_pure hreads
    · simp only [hmore, if_false]
      -- Fewer chunks are left, and they hold some of the same Pods.
      refine sat_bind (ih hnext (fun item hmem => hpods item (hsuffix.subset hmem)) (by omega))
        fun later hlater => sat_pure (hall later hlater)

/-! ## Whether the scan stops in time -/

variable (pod) in
/-- A Pod of a namespace after the greatest allowed one. -/
def beyond (item : T) : Bool :=
  (pod item).any (· > maxNamespace allowed)

variable (pod) in
/-- No Pod beyond the scope comes before a Pod in scope. -/
def StopsInTime (pods : List T) : Prop :=
  pods.Pairwise fun a b => beyond pod allowed a = true → inScope pod allowed b = false

instance (pod : T → Option String) (allowed : List String) (pods : List T) :
    Decidable (StopsInTime pod allowed pods) := by
  unfold StopsInTime
  infer_instance

theorem beyond_of_passes {chunk : List T} (h : passes pod allowed chunk = true) :
    ∃ item ∈ chunk, beyond pod allowed item = true := by
  have hbeyond : maxNamespace allowed < lastNamespace pod chunk := of_decide_eq_true h
  unfold lastNamespace at hbeyond
  cases hlast : chunk.getLast?.bind pod with
  | none =>
    rw [hlast] at hbeyond
    exact absurd hbeyond (not_lt_nil _)
  | some name =>
    rw [hlast] at hbeyond
    obtain ⟨item, hitem, hname⟩ := Option.bind_eq_some_iff.mp hlast
    refine ⟨item, mem_of_getLast? hitem, ?_⟩
    rw [beyond, hname]
    exact decide_eq_true hbeyond

theorem KeptOf.eq_filter {kept : List T} (h : KeptOf pod allowed P pods kept)
    (hstops : StopsInTime pod allowed pods) : kept = pods.filter (inScope pod allowed) := by
  induction h with
  | last _ => rfl
  | @stop chunk rest _ hpasses =>
    obtain ⟨item, hitem, hbeyond⟩ := beyond_of_passes allowed hpasses
    have hnone : rest.filter (inScope pod allowed) = [] := by
      rw [filter_eq_nil_iff]
      intro other hother
      simp [(pairwise_append.mp hstops).2.2 item hitem other hother hbeyond]
    rw [filter_append, hnone, append_nil]
  | more _ _ _ ih => rw [filter_append, ih (pairwise_append.mp hstops).2.1]

/-- Read one by one, the Pods behind one that is beyond the scope are lost. -/
theorem KeptOf.stopsInTime {kept : List T}
    (h : KeptOf pod allowed (fun chunk => chunk.length ≤ 1) pods kept)
    (hall : kept ~ pods.filter (inScope pod allowed)) : StopsInTime pod allowed pods := by
  have hbehind : ∀ {chunk rest : List T}, chunk.length ≤ 1 → StopsInTime pod allowed rest →
      (passes pod allowed chunk = true → ∀ b ∈ rest, inScope pod allowed b = false) →
      StopsInTime pod allowed (chunk ++ rest) := by
    intro chunk rest hone hrest hpasses
    match chunk, hone with
    | [], _ => exact hrest
    | [item], _ =>
      refine pairwise_cons.mpr ⟨fun b hb hbeyond => hpasses ?_ b hb, hrest⟩
      obtain ⟨name, hname, hgreat⟩ := (Option.any_eq_true _ _).mp hbeyond
      simpa [passes, lastNamespace, hname] using hgreat
  induction h with
  | @last chunk hone =>
    have hlast : StopsInTime pod allowed (chunk ++ []) :=
      hbehind hone Pairwise.nil fun _ _ h => absurd h not_mem_nil
    rwa [append_nil] at hlast
  | @stop chunk rest hone _ =>
    rw [filter_append] at hall
    have hnone := filter_eq_nil_iff.mp (perm_nil.mp ((perm_append_left_iff _).mp
      (by rwa [append_nil] : chunk.filter _ ++ [] ~ _)).symm)
    have hout : ∀ b ∈ rest, inScope pod allowed b = false := fun b hb => by simpa using hnone b hb
    exact hbehind hone (pairwise_of_forall_mem_list fun _ _ b hb _ => hout b hb) fun _ => hout
  | @more chunk rest kept hone hpasses _ ih =>
    rw [filter_append, perm_append_left_iff] at hall
    exact hbehind hone (ih hall) fun h => absurd (hpasses.symm.trans h) Bool.false_ne_true

/-! ## The order of the API server -/

/-- A character of a namespace: a lower-case letter, a digit or a hyphen.  Only the hyphen comes
before the separator of the keys. -/
def labelChar (c : Char) : Bool :=
  c == '-' || '0' ≤ c && c ≤ '9' || 'a' ≤ c && c ≤ 'z'

theorem separator_lt_of_labelChar {c : Char} (h : labelChar c = true) (hhyphen : c ≠ '-') :
    '/' < c := by
  simp only [labelChar, Bool.or_eq_true, Bool.and_eq_true, beq_iff_eq, decide_eq_true_eq] at h
  rcases h with (h | h) | h
  · exact absurd h hhyphen
  · exact Std.lt_of_lt_of_le (by decide : '/' < '0') h.1
  · exact Std.lt_of_lt_of_le (by decide : '/' < 'a') h.1

theorem extends_of_overtakes {x y : List Char} : ∀ {q p : List Char},
    (∀ c ∈ p, labelChar c = true) → ¬ q ++ '/' :: y < p ++ '/' :: x → q < p →
    ∃ rest, p = q ++ '-' :: rest
  | _, [], _, _, hlt => absurd hlt (not_lt_nil _)
  | [], c :: p, hp, hkey, _ => by
    by_cases hhyphen : c = '-'
    · exact ⟨p, by rw [hhyphen, nil_append]⟩
    · have hseparator := separator_lt_of_labelChar (hp c mem_cons_self) hhyphen
      exact absurd (cons_lt_cons_iff.mpr (.inl hseparator)) hkey
  | a :: q, b :: p, hp, hkey, hlt => by
    rcases cons_lt_cons_iff.mp hlt with hhead | ⟨rfl, htail⟩
    · exact absurd (cons_lt_cons_iff.mpr (.inl hhead)) hkey
    · have hkey' : ¬ q ++ '/' :: y < p ++ '/' :: x := by
        intro h
        exact hkey (cons_lt_cons_iff.mpr (.inr ⟨rfl, h⟩))
      obtain ⟨rest, hrest⟩ := extends_of_overtakes
        (fun c hc => hp c (mem_cons_of_mem _ hc)) hkey' htail
      exact ⟨rest, by rw [hrest, cons_append]⟩

theorem le_maxNamespace {allowed : List String} {name : String} (h : name ∈ allowed) :
    name ≤ maxNamespace allowed := by
  have hfold : ∀ (names : List String) (start : String), ∀ name ∈ start :: names,
      name ≤ names.foldl (fun greatest name => if name > greatest then name else greatest)
        start := by
    intro names
    induction names with
    | nil => simp
    | cons first rest ih =>
      intro start
      rw [foldl_cons, forall_mem_cons, forall_mem_cons]
      obtain ⟨hle, hrest⟩ := forall_mem_cons.mp (ih (if first > start then first else start))
      refine ⟨Std.le_trans ?_ hle, Std.le_trans ?_ hle, hrest⟩ <;> split <;> grind
  exact hfold allowed "" name (mem_cons_of_mem _ h)

/-- A Pod under the key of its namespace, which extends no allowed one by a hyphen. -/
def Keyed (pod : T → Option String) (key : T → String) (item : T) : Prop :=
  ∃ name rest, pod item = some name ∧ key item = name ++ "/" ++ rest ∧
    name.toList.all labelChar = true ∧ ∀ other ∈ allowed, ¬ other.toList ++ ['-'] <+: name.toList

/-- In the order of the API server the scan stops in time. -/
theorem stopsInTime_of_sorted {key : T → String} (hsorted : pods.Pairwise fun a b => key a ≤ key b)
    (hkeyed : ∀ item ∈ pods, Keyed allowed pod key item) : StopsInTime pod allowed pods := by
  refine hsorted.imp_of_mem fun {a b} ha hb hle hbeyond => ?_
  rw [Bool.eq_false_iff]
  intro hscope
  obtain ⟨name, x, hname, hx, hlabel, hextends⟩ := hkeyed a ha
  obtain ⟨other, y, hother, hy, -⟩ := hkeyed b hb
  have hallowed : other ∈ allowed := by simpa [inScope, hother] using hscope
  have hgreat : maxNamespace allowed < name := by simpa [beyond, hname] using hbeyond
  have hlt := Std.lt_of_le_of_lt (le_maxNamespace hallowed) hgreat
  rw [hx, hy] at hle
  obtain ⟨tail, htail⟩ := extends_of_overtakes (x := x.toList) (y := y.toList)
    (all_eq_true.mp hlabel) (by
      have := String.not_lt.mpr hle
      rw [String.lt_iff] at this
      simpa using this) hlt
  exact hextends other hallowed ⟨tail, by rw [htail, append_assoc, singleton_append]⟩

theorem drainInScope_filter (hcontext : Always contextErr fun err => err = none)
    (hstart : page.continueToken = "") (hserves : Serves list page chunks pods)
    (hpods : ∀ item ∈ pods, (pod item).isSome) (hstops : StopsInTime pod allowed pods)
    {calls : Nat} (hcalls : chunks < calls) :
    Sat False (drainInScope contextErr list pod allowed calls page)
      fun items => items = pods.filter (inScope pod allowed) := by
  obtain ⟨left, hserves, hleft⟩ := hserves
  have hdrain := drainInScope_spec allowed hserves hcontext calls hleft hpods hcalls
  rw [← hstart] at hdrain
  exact hdrain.mono fun items hreads => hreads.eq_filter allowed hstops

/-- In the order of the API server, under any native chunking, draining the scan returns the Pods
of the allowed namespaces, unless a namespace extends one of them by a hyphen. -/
theorem drainInScope_of_sorted (hcontext : Always contextErr fun err => err = none)
    (hstart : page.continueToken = "") (hserves : Serves list page chunks pods)
    {calls : Nat} (hcalls : chunks < calls) {key : T → String}
    (hsorted : pods.Pairwise fun a b => key a ≤ key b)
    (hkeyed : ∀ item ∈ pods, Keyed allowed pod key item) :
    Sat False (drainInScope contextErr list pod allowed calls page)
      fun items => items = pods.filter (inScope pod allowed) := by
  refine drainInScope_filter allowed hcontext hstart hserves (fun item hitem => ?_)
    (stopsInTime_of_sorted allowed hsorted hkeyed) hcalls
  obtain ⟨name, -, hname, -⟩ := hkeyed item hitem
  simp [hname]

/-! ## A lister for each size of the chunks -/

/-- Serves the Pods in chunks of the size that `size` gives for a limit, at least one.  The length
of a token is the number of Pods that are left. -/
def podLister (size : Int → Nat) (pods : List T) : Lister Unit T := fun request =>
  let rest := if request.continueToken = "" then pods
    else pods.drop (pods.length - request.continueToken.length)
  let items := rest.take (max 1 (size request.limit))
  pure (⟨request.origin, items, String.ofList (replicate (rest.length - items.length) 'x'), ""⟩,
    none)

theorem podLister_servesLeft (size : Int → Nat) (pods : List T) (page : PageRequest)
    (P : List T → Prop) (hP : ∀ (rest : List T) limit, P (rest.take (max 1 (size limit)))) :
    ∃ left, ServesLeft (podLister size pods) page P left ∧ left pods.length "" pods := by
  refine ⟨fun chunks token rest => rest.length = chunks ∧ rest =
    if token = "" then pods else pods.drop (pods.length - token.length), ?_, rfl, rfl⟩
  intro chunks token rest ⟨hlength, hrest⟩ limit s
  have hsuffix : rest <:+ pods := by
    rw [hrest]
    split
    · exact suffix_refl _
    · exact drop_suffix _ _
  refine ⟨_, rest.drop (max 1 (size limit)), rfl, ?_⟩
  simp only [← hrest]
  refine ⟨hP rest limit, (take_append_drop _ _).symm, ?_⟩
  rw [length_take]
  by_cases hend : rest.length ≤ max 1 (size limit)
  · left
    rw [min_eq_right hend, Nat.sub_self]
    exact ⟨rfl, drop_eq_nil_of_le hend⟩
  · right
    have hmore : String.ofList (replicate (rest.length - min (max 1 (size limit)) rest.length) 'x')
        ≠ "" := by
      intro hempty
      have := congrArg String.length hempty
      rw [String.length_ofList, length_replicate] at this
      simp at this
      omega
    refine ⟨hmore, _, ?_, rfl, ?_⟩
    · rw [length_drop]
      omega
    · rw [if_neg hmore, String.length_ofList, length_replicate]
      obtain ⟨front, rfl⟩ := hsuffix
      rw [length_append, show ∀ a b c : Nat, c ≤ b → a + b - (b - c) = a + c by omega,
        drop_length_add_append, min_eq_left (not_le.mp hend).le]
      exact min_le_right _ _

/-- Without faults: draining the scan returns the Pods of the allowed namespaces, each once, under
every native chunking, exactly if no Pod of a namespace after the greatest allowed one comes before
a Pod in scope. -/
theorem listGlobalPodPageInScope_drains_iff (pod : T → Option String) (allowed : List String)
    (page : PageRequest) (hstart : page.continueToken = "") (pods : List T)
    (hpods : ∀ item ∈ pods, (pod item).isSome) :
    (∀ (σ : Type) (contextErr : StateM σ (Option ReadError)) (list : Lister σ T) (chunks : Nat),
      Always contextErr (fun err => err = none) → Serves list page chunks pods →
      ∀ calls, chunks < calls → ∀ s, ∃ items t,
        (drainInScope contextErr list pod allowed calls page).run.run s = (.ok items, t) ∧
        items ~ pods.filter (inScope pod allowed)) ↔
    StopsInTime pod allowed pods := by
  constructor
  · intro h
    -- One Pod in each chunk, whatever the limit.
    have hP : ∀ (rest : List T) (_ : Int), (rest.take (max 1 1)).length ≤ 1 :=
      fun rest _ => length_take_le _ _
    obtain ⟨left, hserves, hleft⟩ :=
      podLister_servesLeft (fun _ => 1) pods page (fun chunk => chunk.length ≤ 1) hP
    obtain ⟨items, t, hrun, hall⟩ := h Unit (pure none) (podLister (fun _ => 1) pods) pods.length
      (fun _ => rfl) (podLister_servesLeft _ pods page _ fun _ _ => trivial) _
      (Nat.lt_succ_self _) ()
    have hcontext : Always (pure none : StateM Unit (Option ReadError)) fun err => err = none :=
      fun _ => rfl
    have hdrain := drainInScope_spec allowed hserves hcontext _ hleft hpods (Nat.lt_succ_self _)
    rw [← hstart] at hdrain
    exact ((hdrain.weaken False.elim).of_run hrun).stopsInTime allowed hall
  · intro hstops σ contextErr list chunks hcontext hserves calls hcalls s
    obtain ⟨items, t, hrun, hitems⟩ :=
      (drainInScope_filter allowed hcontext hstart hserves hpods hstops hcalls).exists_run s
    exact ⟨items, t, hrun, hitems ▸ .refl _⟩

def podKey (pod : String × String) : String :=
  pod.1 ++ "/" ++ pod.2

def podsOf (limit : Int) : PageRequest :=
  ⟨⟨"", "", "v1", "pods"⟩, limit, "", "", ""⟩

def shopPods : List (String × String) :=
  [("bank", "api"), ("shop", "api"), ("shop", "job"), ("shop", "web"), ("zoo", "api")]

theorem podLister_serves (size : Int → Nat) (pods : List T) (page : PageRequest) :
    Serves (podLister size pods) page pods.length pods :=
  podLister_servesLeft size pods page _ fun _ _ => trivial

/-- A lister that keeps to the limit, which is two, and one for the lookahead. -/
theorem listGlobalPodPageInScope_drains_shop :
    StopsInTime (fun pod : String × String => some pod.1) ["bank", "shop"] shopPods ∧
    ∀ calls, 5 < calls → ∀ s, ∃ items t,
      (drainInScope (pure none) (podLister Int.toNat shopPods) (fun pod => some pod.1)
        ["bank", "shop"] calls (podsOf 2)).run.run s = (.ok items, t) ∧
      items ~ [("bank", "api"), ("shop", "api"), ("shop", "job"), ("shop", "web")] :=
  ⟨by decide, (listGlobalPodPageInScope_drains_iff (fun pod : String × String => some pod.1)
    ["bank", "shop"] (podsOf 2) rfl shopPods (fun _ _ => rfl)).mpr (by decide) Unit (pure none) _ 5
    (fun _ => rfl) (podLister_serves _ _ _)⟩

theorem drainInScope_shop :
    Sat False (drainInScope (pure none) (podLister Int.toNat shopPods) (fun pod => some pod.1)
      ["bank", "shop"] 6 (podsOf 2))
      fun items => items = [("bank", "api"), ("shop", "api"), ("shop", "job"), ("shop", "web")] :=
  drainInScope_of_sorted ["bank", "shop"] (fun _ => rfl) rfl (podLister_serves _ shopPods _)
    (by decide) (show Pairwise (fun a b => podKey a ≤ podKey b) _ by decide)
    fun item hitem => ⟨item.1, item.2, rfl, rfl, by revert item; decide⟩

/-- `shop-dev/api` comes before `shop/api`: the scan for `shop` stops at the first chunk. -/
theorem listGlobalPodPageInScope_loses_pod :
    ([("shop-dev", "api"), ("shop", "api")].map podKey).Pairwise (· < ·) ∧
    (∀ c ∈ ("shop-dev" ++ "shop" : String).toList, labelChar c = true) ∧
    Serves (podLister Int.toNat [("shop-dev", "api"), ("shop", "api")]) (podsOf 1) 2
      [("shop-dev", "api"), ("shop", "api")] ∧
    (drainInScope (pure none) (podLister Int.toNat [("shop-dev", "api"), ("shop", "api")])
      (fun pod => some pod.1) ["shop"] 3 (podsOf 1)).run.run () = (.ok [], ()) ∧
    [("shop-dev", "api"), ("shop", "api")].filter (inScope (fun pod => some pod.1) ["shop"]) =
      [("shop", "api")] := by
  refine ⟨by decide, List.all_eq_true.mp (by decide), podLister_serves _ _ _, ?_, by decide⟩
  change @Eq (Except Halt (List (String × String)) × Unit) _ _
  decide +kernel

end Kubepeep.Backend
