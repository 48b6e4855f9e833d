import Mathlib

/-!
# The client cache

`ClientCache` of `internal/adapters/kubernetes/client_cache.go`, cut into its critical sections: an
`Activate` enters the cache, leaves it to build clients or to wait for another build, and comes back
with the ticket it drew when it entered.
-/

open Nat Function

namespace Kubepeep.Kubernetes

inductive ErrorCode where
  | CodeKubeconfigNotFound
  | CodeKubeconfigInvalid
  | CodeContextNotFound
  | CodeContextRequired
  | CodeAuthenticationUnavailable
  | CodeClusterUnavailable
  | CodeRequestCanceled
  | CodeRequestTimeout
  | CodeGenerationChanged
  | CodeClientUnavailable
  deriving DecidableEq, Repr

structure SafeError where
  code : ErrorCode
  message : String
  retryable : Bool
  deriving DecidableEq, Repr

def errGenerationChanged : SafeError :=
  ⟨.CodeGenerationChanged, "The Kubernetes client generation changed.", true⟩

def errCacheClosed : SafeError :=
  ⟨.CodeClientUnavailable, "The Kubernetes client cache is closed.", false⟩

def IsGenerationChanged (error : SafeError) : Bool := error.code == .CodeGenerationChanged

/-- The 32 bytes of a SHA-256. -/
abbrev Fingerprint := BitVec 256

structure Descriptor where
  paths : List String
  context : String
  deriving DecidableEq, Repr

/-- `digest` is the hexadecimal SHA-256 of parts that each carry their length. -/
def Descriptor.CacheKey (digest : List String → String) (descriptor : Descriptor) : String :=
  digest ("kubepeep-client-v1" :: descriptor.paths ++ [descriptor.context])

structure Resolution where
  descriptor : Descriptor
  fingerprint : Fingerprint
  deriving DecidableEq

/-- The parts of a build key.  The source joins them by colons, of which neither a fingerprint nor
an epoch has any. -/
structure BuildKey where
  key : String
  fingerprint : Fingerprint
  epoch : Nat
  deriving DecidableEq

/-- Client sets are numbered, and so are the contexts of generations. -/
structure Lease where
  clients : Nat
  generation : Nat
  descriptor : Descriptor
  fingerprint : Fingerprint
  deriving DecidableEq

structure CacheEntry where
  fingerprint : Fingerprint
  clients : Nat
  deriving DecidableEq

/-- `builds` are the build calls by number, with their result once they are done; `done` says that
the context of the cache is. -/
structure ClientCache where
  entries : String → Option CacheEntry
  inflight : BuildKey → Option Nat
  builds : Nat → Option (Except SafeError Nat)
  buildSeq : Nat
  epochs : String → Nat
  active : Option Lease
  activationSeq : Nat
  activationTarget : Option BuildKey
  generationSeq : Nat
  cancelled : Nat → Bool
  done : Bool
  closed : Bool

/-- What an `Activate` keeps while it is out of the cache. -/
structure Ticket where
  descriptor : Descriptor
  buildKey : BuildKey
  activation : Nat
  call : Nat
  deriving DecidableEq

inductive Entered where
  | returned (result : Except SafeError Lease)
  | building (ticket : Ticket)
  | waiting (ticket : Ticket)

namespace ClientCache

def new : ClientCache where
  entries _ := none
  inflight _ := none
  builds _ := none
  buildSeq := 0
  epochs _ := 0
  active := none
  activationSeq := 0
  activationTarget := none
  generationSeq := 0
  cancelled _ := false
  done := false
  closed := false

variable (cache : ClientCache)

def live (lease : Lease) : Bool :=
  !cache.done && !cache.cancelled lease.generation

def cancelActive : ClientCache :=
  match cache.active with
  | none => cache
  | some lease => { cache with cancelled := update cache.cancelled lease.generation true }

def activateLocked (descriptor : Descriptor) (fingerprint : Fingerprint)
    (clients : Nat) : ClientCache × Lease :=
  let lease : Lease := ⟨clients, cache.generationSeq + 1, descriptor, fingerprint⟩
  ({ cache.cancelActive with generationSeq := cache.generationSeq + 1, active := some lease },
    lease)

def aim (buildKey : BuildKey) : ClientCache :=
  if cache.activationTarget = some buildKey then cache
  else { cache with
    activationSeq := cache.activationSeq + 1
    activationTarget := some buildKey }

def dropEntry (key : String) : ClientCache :=
  { cache with entries := update cache.entries key none }

/-- The first `Activate` of a build key starts a build, the others wait for it. -/
def join (descriptor : Descriptor) (buildKey : BuildKey) :
    ClientCache × Entered :=
  match cache.inflight buildKey with
  | none =>
    ({ cache with
        inflight := update cache.inflight buildKey (some cache.buildSeq)
        buildSeq := cache.buildSeq + 1 },
      .building ⟨descriptor, buildKey, cache.activationSeq, cache.buildSeq⟩)
  | some call => (cache, .waiting ⟨descriptor, buildKey, cache.activationSeq, call⟩)

variable (digest : List String → String)

def hit (key : String) (fingerprint : Fingerprint) : Option Lease :=
  cache.active.filter fun lease =>
    lease.descriptor.CacheKey digest = key ∧ lease.fingerprint = fingerprint ∧ cache.live lease

def dropOther (key : String) (fingerprint : Fingerprint) : ClientCache :=
  match cache.active with
  | none => cache
  | some lease =>
    if lease.descriptor.CacheKey digest ≠ key ∨ lease.fingerprint ≠ fingerprint then
      { cache.cancelActive with active := none }
    else cache

/-- `Activate` from its lock on, with a resolution whose fingerprint is current. -/
def enter (resolution : Resolution) : ClientCache × Entered :=
  let key := resolution.descriptor.CacheKey digest
  let fingerprint := resolution.fingerprint
  if cache.closed then
    (cache, .returned (.error errCacheClosed))
  else
    match cache.hit digest key fingerprint with
    | some lease => (cache, .returned (.ok lease))
    | none =>
      let buildKey : BuildKey := ⟨key, fingerprint, cache.epochs key⟩
      let aimed := (cache.aim buildKey).dropOther digest key fingerprint
      match aimed.entries key with
      | none => aimed.join resolution.descriptor buildKey
      | some entry =>
        if entry.fingerprint = fingerprint then
          let activated := aimed.activateLocked resolution.descriptor fingerprint entry.clients
          (activated.1, .returned (.ok activated.2))
        else
          (aimed.dropEntry key).join resolution.descriptor buildKey

variable (ticket : Ticket)

/-- The end of both ways out of the cache: the active lease if there is one by now. -/
def reuse (clients : Nat) : ClientCache × Lease :=
  match cache.hit digest ticket.buildKey.key ticket.buildKey.fingerprint with
  | some lease => (cache, lease)
  | none => cache.activateLocked ticket.descriptor ticket.buildKey.fingerprint clients

/-- Another selection, or an invalidation of the key, has come in between. -/
def superseded : Bool :=
  cache.epochs ticket.buildKey.key != ticket.buildKey.epoch ||
    ticket.activation != cache.activationSeq ||
    cache.activationTarget != some ticket.buildKey

variable (result : Except SafeError Nat)

/-- A build ends: its waiters are told, and its clients are kept unless it is superseded. -/
def record : ClientCache :=
  { cache with
    builds := update cache.builds ticket.call (some result)
    inflight := update cache.inflight ticket.buildKey none
    entries := match result with
      | .error _ => cache.entries
      | .ok clients =>
        if cache.closed || cache.superseded ticket then cache.entries
        else update cache.entries ticket.buildKey.key
          (some ⟨ticket.buildKey.fingerprint, clients⟩) }

def built :
    ClientCache × Except SafeError Lease :=
  let recorded := cache.record ticket result
  if cache.closed then
    (recorded, .error errCacheClosed)
  else if cache.superseded ticket then
    (recorded, .error errGenerationChanged)
  else
    match result with
    | .error error => (recorded, .error error)
    | .ok clients =>
      let reused := recorded.reuse digest ticket clients
      (reused.1, .ok reused.2)

def woken :
    ClientCache × Except SafeError Lease :=
  if ticket.activation ≠ cache.activationSeq then
    (cache, .error errGenerationChanged)
  else
    match result with
    | .error error => (cache, .error error)
    | .ok clients =>
      if cache.closed then
        (cache, .error errCacheClosed)
      else
        let reused := cache.reuse digest ticket clients
        (reused.1, .ok reused.2)

def invalidateKey (key : String) : ClientCache :=
  let bumped :=
    { cache with
      epochs := update cache.epochs key (cache.epochs key + 1)
      activationSeq := cache.activationSeq + 1
      activationTarget := none
      entries := update cache.entries key none }
  match cache.active with
  | none => bumped
  | some lease =>
    if lease.descriptor.CacheKey digest = key then { bumped.cancelActive with active := none }
    else bumped

def Close : ClientCache :=
  if cache.closed then cache
  else { cache.cancelActive with
    closed := true
    done := true
    active := none
    entries := fun _ => none }

/-! ## Tickets

As long as no other activation has begun, the active lease is one for the ticket's key. -/

def ActiveFor (buildKey : BuildKey) : Prop :=
  ∀ lease, cache.active = some lease →
    lease.descriptor.CacheKey digest = buildKey.key ∧ lease.fingerprint = buildKey.fingerprint

structure Follows (cache : ClientCache) (ticket : Ticket) : Prop where
  key : ticket.descriptor.CacheKey digest = ticket.buildKey.key
  le : ticket.activation ≤ cache.activationSeq
  owner : ticket.activation = cache.activationSeq →
    cache.activationTarget = some ticket.buildKey ∧ cache.ActiveFor digest ticket.buildKey

section

variable (buildKey : BuildKey) (key : String) (fingerprint : Fingerprint)

@[simp] theorem cancelActive_activationSeq :
    cache.cancelActive.activationSeq = cache.activationSeq := by
  unfold cancelActive
  split <;> rfl

@[simp] theorem cancelActive_activationTarget :
    cache.cancelActive.activationTarget = cache.activationTarget := by
  unfold cancelActive
  split <;> rfl

theorem cancelActive_eq :
    cache.cancelActive = { cache with cancelled := cache.cancelActive.cancelled } := by
  rw [cancelActive]
  split <;> rfl

@[simp] theorem cancelActive_epochs : cache.cancelActive.epochs = cache.epochs := by
  unfold cancelActive
  split <;> rfl

theorem aim_activationTarget :
    (cache.aim buildKey).activationTarget = some buildKey := by
  unfold aim
  split
  · assumption
  · rfl

theorem le_aim_activationSeq :
    cache.activationSeq ≤ (cache.aim buildKey).activationSeq := by
  unfold aim
  split
  · exact le_refl _
  · exact le_succ _

theorem dropOther_activeFor :
    (cache.dropOther digest buildKey.key buildKey.fingerprint).ActiveFor digest buildKey := by
  intro lease hactive
  unfold dropOther at hactive
  split at hactive
  next hnone => rw [hnone] at hactive; cases hactive
  next other hother =>
    split at hactive
    · cases hactive
    next hsame =>
      rw [hother] at hactive
      cases hactive
      tauto

theorem dropOther_activationSeq :
    (cache.dropOther digest key fingerprint).activationSeq = cache.activationSeq := by
  unfold dropOther
  split
  · rfl
  · split <;> simp

theorem dropOther_activationTarget :
    (cache.dropOther digest key fingerprint).activationTarget = cache.activationTarget := by
  unfold dropOther
  split
  · rfl
  · split <;> simp

theorem join_spec (descriptor : Descriptor) (buildKey : BuildKey) :
    let joined := cache.join descriptor buildKey
    joined.1.activationSeq = cache.activationSeq ∧
      joined.1.activationTarget = cache.activationTarget ∧ joined.1.active = cache.active ∧
      ∃ call, joined.2 = .building ⟨descriptor, buildKey, cache.activationSeq, call⟩ ∨
        joined.2 = .waiting ⟨descriptor, buildKey, cache.activationSeq, call⟩ := by
  unfold join
  split
  · exact ⟨rfl, rfl, rfl, _, .inl rfl⟩
  · exact ⟨rfl, rfl, rfl, _, .inr rfl⟩

theorem invalidateKey_activationSeq :
    (cache.invalidateKey digest key).activationSeq = cache.activationSeq + 1 := by
  unfold invalidateKey
  split
  · rfl
  · split <;> simp

theorem Close_activationSeq : cache.Close.activationSeq = cache.activationSeq := by
  unfold Close
  split <;> simp

end

variable {digest} {cache : ClientCache}

section Sections

variable {buildKey : BuildKey} {key : String} {fingerprint : Fingerprint} {ticket : Ticket}

variable {lease : Lease}

theorem cancelActive_cancels (h : cache.active = some lease) :
    cache.cancelActive.cancelled lease.generation = true := by
  rw [cancelActive, h]
  exact update_self ..

theorem cancelActive_grows {n : Nat} (h : cache.cancelled n = true) :
    cache.cancelActive.cancelled n = true := by
  rw [cancelActive]
  split
  · exact h
  next lease _ =>
    by_cases hn : n = lease.generation
    · rw [hn]
      exact update_self ..
    · exact (update_of_ne hn ..).trans h

theorem hit_eq_some (h : cache.hit digest key fingerprint = some lease) :
    cache.active = some lease ∧ lease.descriptor.CacheKey digest = key ∧
      lease.fingerprint = fingerprint ∧ cache.live lease = true := by
  unfold hit at h
  rw [Option.filter_eq_some_iff] at h
  simpa using h

theorem Follows.aim (h : cache.Follows digest ticket) (buildKey : BuildKey) :
    (cache.aim buildKey).Follows digest ticket := by
  unfold ClientCache.aim
  split
  · exact h
  · -- the ticket belongs to an earlier activation
    have hle := h.le
    exact ⟨h.key, by dsimp only; omega, fun heq => by dsimp only at heq; omega⟩

variable {next : ClientCache}

theorem Follows.congr (h : cache.Follows digest ticket)
    (hseq : next.activationSeq = cache.activationSeq)
    (htarget : next.activationTarget = cache.activationTarget)
    (hactive : next.active = cache.active ∨
      ∀ buildKey, cache.activationTarget = some buildKey → next.ActiveFor digest buildKey) :
    next.Follows digest ticket := by
  refine ⟨h.key, hseq ▸ h.le, fun howner => ?_⟩
  have ⟨haimed, hfor⟩ := h.owner (howner.trans hseq)
  refine ⟨htarget.trans haimed, ?_⟩
  rcases hactive with hsame | hother
  · unfold ActiveFor
    rw [hsame]
    exact hfor
  · exact hother _ haimed

theorem Follows.dropOther (h : cache.Follows digest ticket) (buildKey : BuildKey)
    (htarget : cache.activationTarget = some buildKey) :
    (cache.dropOther digest buildKey.key buildKey.fingerprint).Follows digest ticket := by
  refine h.congr (dropOther_activationSeq ..) (dropOther_activationTarget ..) (.inr ?_)
  intro target haimed
  cases htarget.symm.trans haimed
  exact cache.dropOther_activeFor digest buildKey

variable {descriptor : Descriptor}

theorem activateLocked_activeFor (clients : Nat)
    (hkey : descriptor.CacheKey digest = buildKey.key) :
    (cache.activateLocked descriptor buildKey.fingerprint clients).1.ActiveFor digest buildKey := by
  intro lease hlease
  cases hlease
  exact ⟨hkey, rfl⟩

theorem Follows.activateLocked (h : cache.Follows digest ticket)
    (htarget : cache.activationTarget = some buildKey)
    (hkey : descriptor.CacheKey digest = buildKey.key) (clients : Nat) :
    (cache.activateLocked descriptor buildKey.fingerprint clients).1.Follows digest ticket := by
  refine h.congr (by simp [ClientCache.activateLocked]) (by simp [ClientCache.activateLocked])
    (.inr ?_)
  intro target haimed
  cases htarget.symm.trans haimed
  exact activateLocked_activeFor clients hkey

theorem enter_cases {P : ClientCache × Entered → Prop} (digest : List String → String)
    (cache : ClientCache) (resolution : Resolution)
    (hclosed : P (cache, .returned (.error errCacheClosed)))
    (hhit : ∀ lease, cache.active = some lease → P (cache, .returned (.ok lease)))
    (hmiss : ∀ buildKey aimed, buildKey.key = resolution.descriptor.CacheKey digest →
      buildKey.fingerprint = resolution.fingerprint → buildKey.epoch = cache.epochs buildKey.key →
      aimed = (cache.aim buildKey).dropOther digest buildKey.key buildKey.fingerprint →
      (∀ entry, aimed.entries buildKey.key = some entry →
        P ((aimed.activateLocked resolution.descriptor buildKey.fingerprint entry.clients).1,
          .returned (.ok (aimed.activateLocked resolution.descriptor buildKey.fingerprint
            entry.clients).2))) ∧
      P (aimed.join resolution.descriptor buildKey) ∧
      P ((aimed.dropEntry buildKey.key).join resolution.descriptor buildKey)) :
    P (cache.enter digest resolution) := by
  unfold enter
  by_cases hdone : cache.closed = true
  · rw [if_pos hdone]
    exact hclosed
  · rw [if_neg hdone]
    split
    next lease hlease => exact hhit lease (hit_eq_some hlease).1
    next =>
      have ⟨hentry, hjoin, hstale⟩ := hmiss ⟨resolution.descriptor.CacheKey digest,
        resolution.fingerprint, cache.epochs (resolution.descriptor.CacheKey digest)⟩ _ rfl rfl rfl
        rfl
      dsimp only
      split
      · exact hjoin
      next entry hsome =>
        split
        · exact hentry entry hsome
        · exact hstale

/-- What `enter` does to the tickets that are out, and with the ticket it gives. -/
structure Enters (digest : List String → String) (cache : ClientCache)
    (result : ClientCache × Entered) : Prop where
  seq : cache.activationSeq ≤ result.1.activationSeq
  follows : ∀ ticket, cache.Follows digest ticket → result.1.Follows digest ticket
  building : ∀ ticket, result.2 = .building ticket → result.1.Follows digest ticket
  waiting : ∀ ticket, result.2 = .waiting ticket → result.1.Follows digest ticket
  active : ∀ lease, result.2 = .returned (.ok lease) → result.1.active = some lease

theorem Enters.join {aimed : ClientCache} (hkey : descriptor.CacheKey digest = buildKey.key)
    (hseq : cache.activationSeq ≤ aimed.activationSeq)
    (hfollows : ∀ ticket, cache.Follows digest ticket → aimed.Follows digest ticket)
    (htarget : aimed.activationTarget = some buildKey) (hactive : aimed.ActiveFor digest buildKey) :
    Enters digest cache (aimed.join descriptor buildKey) := by
  have ⟨hjoinSeq, hjoinTarget, hjoinActive, call, hticket⟩ := join_spec aimed descriptor buildKey
  have hgiven : (aimed.join descriptor buildKey).1.Follows digest
      ⟨descriptor, buildKey, aimed.activationSeq, call⟩ := by
    refine ⟨hkey, le_of_eq hjoinSeq.symm, fun _ => ⟨hjoinTarget.trans htarget, ?_⟩⟩
    unfold ActiveFor
    rw [hjoinActive]
    exact hactive
  constructor
  · exact hjoinSeq ▸ hseq
  · intro ticket h
    exact (hfollows ticket h).congr hjoinSeq hjoinTarget (.inl hjoinActive)
  · intro ticket h
    rcases hticket with hbuild | hwait
    · cases hbuild.symm.trans h
      exact hgiven
    · cases hwait.symm.trans h
  · intro ticket h
    rcases hticket with hbuild | hwait
    · cases hbuild.symm.trans h
    · cases hwait.symm.trans h
      exact hgiven
  · intro lease h
    rcases hticket with hbuild | hwait
    · cases hbuild.symm.trans h
    · cases hwait.symm.trans h

theorem enter_spec (digest : List String → String) (cache : ClientCache) (resolution : Resolution) :
    Enters digest cache (cache.enter digest resolution) := by
  refine enter_cases digest cache resolution ?_ ?_ ?_
  · exact ⟨le_refl _, fun _ h => h, nofun, nofun, nofun⟩
  · intro lease hlease
    refine ⟨le_refl _, fun _ h => h, nofun, nofun, ?_⟩
    intro other hother
    cases hother
    exact hlease
  · rintro buildKey aimed hkey hfingerprint hepoch rfl
    have hfollows : ∀ ticket, cache.Follows digest ticket →
        ((cache.aim buildKey).dropOther digest buildKey.key buildKey.fingerprint).Follows digest
          ticket :=
      fun ticket h => (h.aim buildKey).dropOther buildKey (aim_activationTarget ..)
    have htarget := aim_activationTarget cache buildKey
    have hseq := le_aim_activationSeq cache buildKey
    have hactive := (cache.aim buildKey).dropOther_activeFor digest buildKey
    rw [← dropOther_activationTarget _ digest buildKey.key buildKey.fingerprint] at htarget
    rw [← dropOther_activationSeq (cache.aim buildKey) digest buildKey.key buildKey.fingerprint]
      at hseq
    refine ⟨?_, .join hkey.symm hseq hfollows htarget hactive,
      .join hkey.symm hseq ?_ htarget hactive⟩
    · intro entry _
      refine ⟨?_, ?_, nofun, nofun, ?_⟩
      · simpa [ClientCache.activateLocked] using hseq
      · intro ticket h
        exact (hfollows ticket h).activateLocked htarget hkey.symm entry.clients
      · intro lease hlease
        cases hlease
        rfl
    · intro ticket h
      exact (hfollows ticket h).congr rfl rfl (.inl rfl)

/-- What coming back with a ticket does: no lease that is live is cancelled, and only the owner of
the current activation changes the active lease, to one for its own key. -/
structure Returns (digest : List String → String) (cache : ClientCache) (ticket : Ticket)
    (result : ClientCache × Except SafeError Lease) : Prop where
  seq : result.1.activationSeq = cache.activationSeq
  follows : ∀ other, cache.Follows digest other → result.1.Follows digest other
  live : ∀ lease, cache.live lease = true → result.1.live lease = true
  active : result.1.active = cache.active ∨ ticket.activation = cache.activationSeq ∧
    result.1.ActiveFor digest ticket.buildKey
  lease : ∀ lease, result.2 = .ok lease → result.1.active = some lease

theorem activateLocked_live {clients : Nat}
    (hmiss : ∀ active, cache.active = some active → cache.live active = false)
    (hlive : cache.live lease = true) :
    (cache.activateLocked descriptor fingerprint clients).1.live lease = true := by
  unfold activateLocked cancelActive
  split
  · exact hlive
  next active hactive =>
    have hdead := hmiss active hactive
    have hne : lease.generation ≠ active.generation := by
      intro heq
      unfold live at hdead hlive
      rw [heq, hdead] at hlive
      cases hlive
    simpa [live, update_of_ne hne] using hlive

theorem reuse_spec (hfollows : cache.Follows digest ticket)
    (howner : ticket.activation = cache.activationSeq) (clients : Nat) :
    Returns digest cache ticket
      ((cache.reuse digest ticket clients).1, .ok (cache.reuse digest ticket clients).2) := by
  have ⟨htarget, hactive⟩ := hfollows.owner howner
  unfold reuse
  split
  next lease hlease =>
    refine ⟨rfl, fun _ h => h, fun _ h => h, .inl rfl, ?_⟩
    intro other hother
    cases hother
    exact (hit_eq_some hlease).1
  next hmiss =>
    have hdead : ∀ active, cache.active = some active → cache.live active = false := by
      intro active hsome
      have ⟨hkey, hfingerprint⟩ := hactive active hsome
      unfold hit at hmiss
      rw [hsome, Option.filter_eq_none_iff] at hmiss
      have hnot := hmiss active rfl
      simpa [hkey, hfingerprint] using hnot
    refine ⟨?_, ?_, ?_, .inr ⟨howner, activateLocked_activeFor clients hfollows.key⟩, ?_⟩
    · simp [ClientCache.activateLocked]
    · intro other h
      exact h.activateLocked htarget hfollows.key clients
    · intro lease hlive
      exact activateLocked_live hdead hlive
    · intro lease hlease
      cases hlease
      rfl

theorem Returns.failed (error : SafeError) (hseq : next.activationSeq = cache.activationSeq)
    (htarget : next.activationTarget = cache.activationTarget)
    (hactive : next.active = cache.active)
    (hlive : ∀ lease, next.live lease = cache.live lease) :
    Returns digest cache ticket (next, .error error) :=
  ⟨hseq, fun _ h => h.congr hseq htarget (.inl hactive), fun lease h => (hlive lease).trans h,
    .inl hactive, nofun⟩

theorem built_spec (hfollows : cache.Follows digest ticket) (result : Except SafeError Nat) :
    Returns digest cache ticket (cache.built digest ticket result) := by
  have hrecorded : (cache.record ticket result).Follows digest ticket :=
    hfollows.congr rfl rfl (.inl rfl)
  unfold built
  by_cases hclosed : cache.closed = true
  · rw [if_pos hclosed]
    exact .failed _ rfl rfl rfl fun _ => rfl
  · rw [if_neg hclosed]
    by_cases hsuperseded : cache.superseded ticket = true
    · rw [if_pos hsuperseded]
      exact .failed _ rfl rfl rfl fun _ => rfl
    · rw [if_neg hsuperseded]
      have howner : ticket.activation = cache.activationSeq := by
        simp only [superseded, Bool.or_eq_true, bne_iff_ne, ne_eq, not_or, not_not] at hsuperseded
        exact hsuperseded.1.2
      cases result with
      | error error => exact .failed _ rfl rfl rfl fun _ => rfl
      | ok clients =>
        have hreused := reuse_spec hrecorded howner clients
        refine ⟨hreused.seq, ?_, hreused.live, hreused.active, hreused.lease⟩
        intro other h
        exact hreused.follows other (h.congr rfl rfl (.inl rfl))

theorem woken_spec (hfollows : cache.Follows digest ticket) (result : Except SafeError Nat) :
    Returns digest cache ticket (cache.woken digest ticket result) := by
  unfold woken
  by_cases howner : ticket.activation = cache.activationSeq
  · rw [if_neg (not_not.mpr howner)]
    cases result with
    | error error => exact .failed _ rfl rfl rfl fun _ => rfl
    | ok clients =>
      split_ifs with hclosed
      · exact .failed _ rfl rfl rfl fun _ => rfl
      · exact reuse_spec hfollows howner clients
  · rw [if_pos howner]
    exact .failed _ rfl rfl rfl fun _ => rfl

theorem Follows.invalidateKey (h : cache.Follows digest ticket) (key : String) :
    (cache.invalidateKey digest key).Follows digest ticket := by
  have hle := h.le
  have hseq := cache.invalidateKey_activationSeq digest key
  exact ⟨h.key, by omega, fun howner => by omega⟩

theorem Follows.Close (h : cache.Follows digest ticket) : cache.Close.Follows digest ticket := by
  by_cases hclosed : cache.closed = true
  · rwa [ClientCache.Close, if_pos hclosed]
  · refine h.congr (Close_activationSeq cache) ?_ (.inr ?_)
    · simp [ClientCache.Close, hclosed]
    · intro buildKey _ lease hlease
      simp [ClientCache.Close, hclosed] at hlease

end Sections

end ClientCache

end Kubepeep.Kubernetes
