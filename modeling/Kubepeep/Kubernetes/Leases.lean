import Kubepeep.Kubernetes.ClientCache
import Kubepeep.Lib.System

/-!
# Runs of the client cache

Calls of `Activate`, `Invalidate` and `Close` in any order.  A call of `Activate` is out of the
cache while clients are built or awaited, and again between its last critical section and its
return.
-/

open Nat List Function

namespace Kubepeep.Kubernetes.Leases

open Kubepeep.System ClientCache

/-- Where a call of `Activate` is; `leaving` is behind its last critical section. -/
inductive Phase where
  | idle
  | building (ticket : Ticket)
  | waiting (ticket : Ticket)
  | leaving (result : Except SafeError Lease)
  | returned (result : Except SafeError Lease)

def Phase.ticket? : Phase → Option Ticket
  | .building ticket => some ticket
  | .waiting ticket => some ticket
  | _ => none

def Phase.lease? : Phase → Option Lease
  | .leaving (.ok lease) => some lease
  | .returned (.ok lease) => some lease
  | _ => none

/-- `issued` are the leases in the order in which they were first handed out. -/
structure World where
  cache : ClientCache
  call : Nat → Phase
  issued : List Lease

def World.new : World := ⟨.new, fun _ => .idle, []⟩

def issue (issued : List Lease) : Except SafeError Lease → List Lease
  | .error _ => issued
  | .ok lease => if lease ∈ issued then issued else issued ++ [lease]

namespace World

variable (m : World)

def setCall (c : Nat) (phase : Phase) : World :=
  { m with call := update m.call c phase }

def leave (c : Nat) (result : ClientCache × Except SafeError Lease) : World where
  cache := result.1
  call := update m.call c (.leaving result.2)
  issued := issue m.issued result.2

def entered (c : Nat) (result : ClientCache × Entered) : World :=
  match result.2 with
  | .returned outcome => m.leave c (result.1, outcome)
  | .building ticket => { m.setCall c (.building ticket) with cache := result.1 }
  | .waiting ticket => { m.setCall c (.waiting ticket) with cache := result.1 }

end World

inductive Action where
  | refuse (c : Nat)
  | stale (c : Nat) (descriptor : Descriptor)
  | enter (c : Nat) (resolution : Resolution)
  | built (c : Nat)
  | giveUp (c : Nat)
  | wake (c : Nat)
  | complete (c : Nat)
  | invalidate (descriptor : Descriptor)
  | close
  | parentDone

variable (digest : List String → String)

def Action.invalidates? : Action → Option String
  | .stale _ descriptor => some (descriptor.CacheKey digest)
  | .invalidate descriptor => some (descriptor.CacheKey digest)
  | _ => none

/-- The client set of a build has the number of the build. -/
inductive Step : World → Action → World → Prop where
  /-- An argument is missing, or the context is done before the fingerprint is known. -/
  | refuse {m : World} {c : Nat} (err : SafeError) (h : m.call c = .idle) :
    Step m (.refuse c) (m.leave c (m.cache, .error err))
  /-- The fingerprint has changed or cannot be read. -/
  | stale {m : World} {c : Nat} (descriptor : Descriptor) (err : SafeError) (h : m.call c = .idle) :
    Step m (.stale c descriptor)
      (m.leave c (m.cache.invalidateKey digest (descriptor.CacheKey digest), .error err))
  | enter {m : World} {c : Nat} (resolution : Resolution) (h : m.call c = .idle) :
    Step m (.enter c resolution) (m.entered c (m.cache.enter digest resolution))
  | built {m : World} {c : Nat} {ticket : Ticket} (result : Except SafeError Unit)
    (h : m.call c = .building ticket) :
    Step m (.built c)
      (m.leave c (m.cache.built digest ticket (result.map fun _ => ticket.call)))
  /-- The context of the waiter or of the cache is done. -/
  | giveUp {m : World} {c : Nat} {ticket : Ticket} (err : SafeError)
    (h : m.call c = .waiting ticket) :
    Step m (.giveUp c) (m.leave c (m.cache, .error err))
  | wake {m : World} {c : Nat} {ticket : Ticket} {result : Except SafeError Nat}
    (h : m.call c = .waiting ticket) (hdone : m.cache.builds ticket.call = some result) :
    Step m (.wake c) (m.leave c (m.cache.woken digest ticket result))
  | complete {m : World} {c : Nat} {result : Except SafeError Lease}
    (h : m.call c = .leaving result) :
    Step m (.complete c) (m.setCall c (.returned result))
  | invalidate {m : World} (descriptor : Descriptor) :
    Step m (.invalidate descriptor)
      { m with cache := m.cache.invalidateKey digest (descriptor.CacheKey digest) }
  | close {m : World} : Step m .close { m with cache := m.cache.Close }
  /-- The context that the cache was made with is done. -/
  | parentDone {m : World} :
    Step m .parentDone { m with cache := { m.cache with done := true } }

variable (cache : ClientCache) (key : String)

/-- `invalidateKey` up to the active lease. -/
def bump : ClientCache :=
  { cache with
    epochs := update cache.epochs key (cache.epochs key + 1)
    activationSeq := cache.activationSeq + 1
    activationTarget := none
    entries := update cache.entries key none }

theorem invalidateKey_cases :
    (cache.invalidateKey digest key = bump cache key ∧
      ∀ lease, cache.active = some lease → lease.descriptor.CacheKey digest ≠ key) ∨
    cache.invalidateKey digest key = { (bump cache key).cancelActive with active := none } := by
  rw [invalidateKey]
  cases hactive : cache.active with
  | none => exact .inl ⟨by rw [bump, hactive], fun lease h => by cases h⟩
  | some lease =>
    dsimp only
    split_ifs with hkey
    · exact .inr (by rw [bump, hactive])
    · refine .inl ⟨by rw [bump, hactive], ?_⟩
      rintro other ⟨⟩
      exact hkey

theorem aim_epochs (buildKey : BuildKey) :
    (cache.aim buildKey).epochs = cache.epochs := by
  rw [aim]
  split <;> rfl

theorem dropOther_epochs (fingerprint : Fingerprint) :
    (cache.dropOther digest key fingerprint).epochs = cache.epochs := by
  rw [dropOther]
  split
  · rfl
  · split
    · exact cache.cancelActive_epochs
    · rfl

/-! ## Issued leases -/

section Leases

variable {cache next : ClientCache} {issued : List Lease} {lease : Lease}

theorem mem_issue (result : Except SafeError Lease) (h : lease ∈ issued) :
    lease ∈ issue issued result := by
  cases result with
  | error err => exact h
  | ok other =>
    rw [issue]
    split
    · exact h
    · exact mem_append_left _ h

theorem mem_issue_ok (issued : List Lease) (lease : Lease) : lease ∈ issue issued (.ok lease) := by
  rw [issue]
  split_ifs with h
  · exact h
  · exact mem_append_right _ (mem_singleton_self _)

structure Live (cache : ClientCache) (issued : List Lease) : Prop where
  bound : ∀ lease ∈ issued, lease.generation ≤ cache.generationSeq
  increasing : issued.Pairwise fun earlier later => earlier.generation < later.generation
  active : ∀ lease, cache.active = some lease → lease ∈ issued
  single : ∀ lease ∈ issued, cache.live lease = true → cache.active = some lease

structure Keeps (cache next : ClientCache) : Prop where
  generationSeq : next.generationSeq = cache.generationSeq
  cancelled : ∀ n, cache.cancelled n = true → next.cancelled n = true
  done : cache.done = true → next.done = true
  active : next.active = cache.active ∨ (next.active = none ∧
    ∀ lease, cache.active = some lease → next.cancelled lease.generation = true)

theorem live_iff :
    cache.live lease = true ↔ cache.done ≠ true ∧ cache.cancelled lease.generation ≠ true := by
  rw [live, Bool.and_eq_true, Bool.not_eq_true', Bool.not_eq_true', ne_eq, ne_eq,
    Bool.not_eq_true, Bool.not_eq_true]

theorem Keeps.of_eq (hseq : next.generationSeq = cache.generationSeq)
    (hcancelled : next.cancelled = cache.cancelled) (hdone : next.done = cache.done)
    (hactive : next.active = cache.active) : Keeps cache next where
  generationSeq := hseq
  cancelled _ h := hcancelled ▸ h
  done h := hdone ▸ h
  active := .inl hactive

theorem Keeps.trans {between : ClientCache} (h : Keeps cache between)
    (hlater : Keeps between next) : Keeps cache next where
  generationSeq := hlater.generationSeq.trans h.generationSeq
  cancelled n hn := hlater.cancelled n (h.cancelled n hn)
  done hdone := hlater.done (h.done hdone)
  active := by
    rcases h.active with hsame | ⟨hnone, hcancelled⟩
    · rw [← hsame]
      exact hlater.active
    · refine .inr ⟨?_, fun lease hactive => hlater.cancelled _ (hcancelled lease hactive)⟩
      rcases hlater.active with hlast | ⟨hlast, _⟩
      · exact hlast.trans hnone
      · exact hlast

theorem Keeps.live (h : Keeps cache next) (hlive : next.live lease = true) :
    cache.live lease = true := by
  rw [live_iff] at hlive ⊢
  exact ⟨fun hdone => hlive.1 (h.done hdone), fun hold => hlive.2 (h.cancelled _ hold)⟩

theorem Live.keeps (h : Live cache issued) (hkeeps : Keeps cache next) : Live next issued where
  bound lease hmem := hkeeps.generationSeq ▸ h.bound lease hmem
  increasing := h.increasing
  active lease hactive := by
    rcases hkeeps.active with hsame | ⟨hnone, _⟩
    · exact h.active lease (hsame ▸ hactive)
    · rw [hnone] at hactive
      cases hactive
  single lease hmem hlive := by
    have hold := h.single lease hmem (hkeeps.live hlive)
    rcases hkeeps.active with hsame | ⟨_, hdead⟩
    · exact hsame.trans hold
    · exact absurd (hdead lease hold) (live_iff.mp hlive).2

variable (cache)

theorem Keeps.cancelActive :
    Keeps cache { cache.cancelActive with active := none } := by
  have hseq := congrArg ClientCache.generationSeq cache.cancelActive_eq
  have hdone := congrArg ClientCache.done cache.cancelActive_eq
  exact ⟨hseq, fun _ h => ClientCache.cancelActive_grows h, fun h => hdone.trans h,
    .inr ⟨rfl, fun _ hactive => ClientCache.cancelActive_cancels hactive⟩⟩

theorem Keeps.aim (buildKey : BuildKey) : Keeps cache (cache.aim buildKey) := by
  rw [ClientCache.aim]
  split <;> exact .of_eq rfl rfl rfl rfl

theorem Keeps.dropOther (key : String) (fingerprint : Fingerprint) :
    Keeps cache (cache.dropOther digest key fingerprint) := by
  rw [ClientCache.dropOther]
  split
  · exact .of_eq rfl rfl rfl rfl
  · split
    · exact .cancelActive cache
    · exact .of_eq rfl rfl rfl rfl

theorem Keeps.join (descriptor : Descriptor) (buildKey : BuildKey) :
    Keeps cache (cache.join descriptor buildKey).1 := by
  rw [ClientCache.join]
  split <;> exact .of_eq rfl rfl rfl rfl

theorem Keeps.invalidateKey (key : String) :
    Keeps cache (cache.invalidateKey digest key) := by
  have hbump : Keeps cache (bump cache key) := .of_eq rfl rfl rfl rfl
  rcases invalidateKey_cases digest cache key with ⟨heq, _⟩ | heq
  · rw [heq]
    exact hbump
  · rw [heq]
    exact hbump.trans (.cancelActive _)

theorem Keeps.Close : Keeps cache cache.Close := by
  rw [ClientCache.Close]
  split
  · exact .of_eq rfl rfl rfl rfl
  · have hcancel := Keeps.cancelActive cache
    exact ⟨hcancel.generationSeq, hcancel.cancelled, fun _ => rfl, hcancel.active⟩

variable {cache}

theorem Live.activateLocked (h : Live cache issued) (descriptor : Descriptor)
    (fingerprint : Fingerprint) (clients : Nat) :
    Live (cache.activateLocked descriptor fingerprint clients).1
      (issue issued (.ok (cache.activateLocked descriptor fingerprint clients).2)) := by
  rw [ClientCache.activateLocked]
  -- the number of the lease is new
  have hnew : (⟨clients, cache.generationSeq + 1, descriptor, fingerprint⟩ : Lease) ∉ issued := by
    intro hmem
    exact absurd (h.bound _ hmem) (not_succ_le_self _)
  rw [issue, if_neg hnew]
  constructor
  · intro lease hmem
    rcases mem_append.mp hmem with hmem | hmem
    · exact le_succ_of_le (h.bound lease hmem)
    · rw [mem_singleton.mp hmem]
  · refine pairwise_append.mpr ⟨h.increasing, pairwise_singleton _ _, ?_⟩
    intro earlier hearlier later hlater
    rw [mem_singleton.mp hlater]
    exact lt_succ_of_le (h.bound earlier hearlier)
  · rintro lease ⟨⟩
    exact mem_append_right _ (mem_singleton_self _)
  · intro lease hmem hlive
    rcases mem_append.mp hmem with hmem | hmem
    · -- an earlier one was the active lease, and has been cancelled
      have hlive := live_iff.mp hlive
      have hdone := congrArg done cache.cancelActive_eq
      have hold : cache.live lease = true := live_iff.mpr ⟨fun hset => hlive.1 (hdone.trans hset),
        fun hcancelled => hlive.2 (cancelActive_grows hcancelled)⟩
      have hactive := h.single lease hmem hold
      exact absurd (cancelActive_cancels hactive) hlive.2
    · rw [mem_singleton.mp hmem]

end Leases

/-! ## Builds

`floor key` is the number of builds at the last invalidation of the key: no earlier build may be
used for it any more. -/

section Builds

variable {floor : String → Nat} {cache next : ClientCache} {ticket : Ticket}

/-- Everything that a later call can find belongs to a build above the floor. -/
structure Floored (floor : String → Nat) (cache : ClientCache) : Prop where
  bound : ∀ key, floor key ≤ cache.buildSeq
  entry : ∀ {key entry}, cache.entries key = some entry → floor key ≤ entry.clients
  epoch : ∀ {buildKey call}, cache.inflight buildKey = some call →
    buildKey.epoch ≤ cache.epochs buildKey.key
  inflight : ∀ {buildKey call}, cache.inflight buildKey = some call →
    buildKey.epoch = cache.epochs buildKey.key → floor buildKey.key ≤ call
  target : ∀ {buildKey}, cache.activationTarget = some buildKey →
    buildKey.epoch = cache.epochs buildKey.key
  active : ∀ {lease}, cache.active = some lease →
    floor (lease.descriptor.CacheKey digest) ≤ lease.clients
  builds : ∀ {n clients}, cache.builds n = some (.ok clients) → clients = n

/-- A ticket that is out: the epoch of its key tells whether its build is above the floor. -/
structure Held (floor : String → Nat) (cache : ClientCache) (ticket : Ticket) : Prop where
  follows : cache.Follows digest ticket
  epoch : ticket.buildKey.epoch ≤ cache.epochs ticket.buildKey.key
  current : ticket.buildKey.epoch = cache.epochs ticket.buildKey.key →
    floor ticket.buildKey.key ≤ ticket.call

variable {digest}

theorem Held.of_epochs (h : Held digest floor cache ticket) (hepochs : next.epochs = cache.epochs)
    (hfollows : next.Follows digest ticket) : Held digest floor next ticket where
  follows := hfollows
  epoch := hepochs ▸ h.epoch
  current := hepochs ▸ h.current

namespace Floored

section

variable (h : Floored digest floor cache)

include h

theorem cancelActive :
    Floored digest floor { cache.cancelActive with active := none } := by
  rw [cancelActive_eq]
  exact { h with active := fun hactive => by cases hactive }

variable {buildKey : BuildKey}

theorem aim (hepoch : buildKey.epoch = cache.epochs buildKey.key) :
    Floored digest floor (cache.aim buildKey) := by
  rw [ClientCache.aim]
  split
  · exact h
  · refine { h with target := ?_ }
    rintro other ⟨⟩
    exact hepoch

theorem dropOther (key : String) (fingerprint : Fingerprint) :
    Floored digest floor (cache.dropOther digest key fingerprint) := by
  rw [ClientCache.dropOther]
  split
  · exact h
  · split
    · exact h.cancelActive
    · exact h

theorem dropEntry (key : String) :
    Floored digest floor (cache.dropEntry key) := by
  refine { h with entry := ?_ }
  intro other entry hentry
  exact h.entry (of_update cache.entries (· = some entry) hentry nofun)

theorem activateLocked {descriptor : Descriptor} {fingerprint : Fingerprint} {clients : Nat}
    (hclients : floor (descriptor.CacheKey digest) ≤ clients) :
    Floored digest floor (cache.activateLocked descriptor fingerprint clients).1 := by
  rw [ClientCache.activateLocked, ClientCache.cancelActive_eq]
  refine { h with active := ?_ }
  rintro lease ⟨⟩
  exact hclients

theorem join (descriptor : Descriptor) (hepoch : buildKey.epoch = cache.epochs buildKey.key) :
    Floored digest floor (cache.join descriptor buildKey).1 := by
  rw [ClientCache.join]
  split
  · refine { h with bound := ?_, epoch := ?_, inflight := ?_ }
    · intro key
      exact le_succ_of_le (h.bound key)
    · intro other call hcall
      rcases update_cases cache.inflight (fun found => found = some call) hcall with
        ⟨rfl, _⟩ | ⟨_, hold⟩
      · exact hepoch.le
      · exact h.epoch hold
    · intro other call hcall
      rcases update_cases cache.inflight (fun found => found = some call) hcall with
        ⟨rfl, hnew⟩ | ⟨_, hold⟩
      · cases hnew
        exact fun _ => h.bound _
      · exact h.inflight hold
  · exact h

end

theorem epoch_of_not_superseded (h : cache.superseded ticket ≠ true) :
    ticket.buildKey.epoch = cache.epochs ticket.buildKey.key := by
  simp only [superseded, Bool.or_eq_true, bne_iff_ne, ne_eq, not_or, not_not] at h
  exact h.1.1.symm

section

variable (h : Floored digest floor cache)

include h

section

variable (hticket : Held digest floor cache ticket)

include hticket

theorem record (result : Except SafeError Unit) :
    Floored digest floor (cache.record ticket (result.map fun _ => ticket.call)) := by
  refine { h with entry := ?_, epoch := ?_, inflight := ?_, builds := ?_ }
  · intro key entry hentry
    cases result with
    | error err => exact h.entry hentry
    | ok _ =>
      change (if _ then cache.entries else _) key = some entry at hentry
      by_cases hkept : (cache.closed || cache.superseded ticket) = true
      · rw [if_pos hkept] at hentry
        exact h.entry hentry
      · rw [if_neg hkept] at hentry
        rw [Bool.or_eq_true, not_or] at hkept
        rcases update_cases cache.entries (fun found => found = some entry) hentry with
          ⟨rfl, hnew⟩ | ⟨_, hold⟩
        · cases hnew
          exact hticket.current (epoch_of_not_superseded hkept.2)
        · exact h.entry hold
  · intro other call hcall
    exact h.epoch (of_update cache.inflight (· = some call) hcall nofun)
  · intro other call hcall
    exact h.inflight (of_update cache.inflight (· = some call) hcall nofun)
  · intro n clients hbuild
    rcases update_cases cache.builds (fun found => found = some (.ok clients)) hbuild with
      ⟨rfl, hnew⟩ | ⟨_, hold⟩
    · cases result with
      | error err => cases hnew
      | ok _ => cases hnew; rfl
    · exact h.builds hold

theorem reuse (hepoch : ticket.buildKey.epoch = cache.epochs ticket.buildKey.key) :
    Floored digest floor (cache.reuse digest ticket ticket.call).1 := by
  rw [ClientCache.reuse]
  split
  · exact h
  · apply h.activateLocked
    rw [hticket.follows.key]
    exact hticket.current hepoch

theorem built (result : Except SafeError Unit) :
    Floored digest floor
      (cache.built digest ticket (result.map fun _ => ticket.call)).1 := by
  have hrecorded := h.record hticket result
  unfold ClientCache.built
  split
  · exact hrecorded
  · split
    · exact hrecorded
    next hsuperseded =>
      cases result with
      | error err => exact hrecorded
      | ok _ =>
        refine hrecorded.reuse (hticket.of_epochs rfl ?_) (epoch_of_not_superseded hsuperseded)
        exact hticket.follows.congr rfl rfl (.inl rfl)

theorem woken {result : Except SafeError Nat} (hdone : cache.builds ticket.call = some result) :
    Floored digest floor (cache.woken digest ticket result).1 := by
  unfold ClientCache.woken
  by_cases howner : ticket.activation = cache.activationSeq
  · rw [if_neg (not_not.mpr howner)]
    cases result with
    | error err => exact h
    | ok clients =>
      dsimp only
      split
      · exact h
      · -- nothing has been invalidated since the waiter came in
        cases h.builds hdone
        exact h.reuse hticket (h.target (hticket.follows.owner howner).1)
  · rw [if_pos howner]
    exact h

end

theorem bump (key : String)
    (hother : ∀ lease, cache.active = some lease → lease.descriptor.CacheKey digest ≠ key) :
    Floored digest (update floor key cache.buildSeq) (bump cache key) where
  bound other := holds_update floor (· ≤ cache.buildSeq) le_rfl (h.bound other)
  entry {other entry} hentry := by
    rcases update_cases cache.entries (fun found => found = some entry) hentry with
      ⟨_, hnone⟩ | ⟨hkey, hold⟩
    · cases hnone
    · rw [update_of_ne hkey]
      exact h.entry hold
  epoch hcall := (h.epoch hcall).trans (le_update_succ cache.epochs key _)
  inflight {buildKey call} hcall hepoch := by
    have hle := h.epoch hcall
    change _ = update cache.epochs key _ buildKey.key at hepoch
    by_cases hkey : buildKey.key = key
    · -- the epoch of the build has passed
      rw [hkey, update_self] at hepoch
      rw [hkey] at hle
      omega
    · rw [update_of_ne hkey] at hepoch ⊢
      exact h.inflight hcall hepoch
  target htarget := by cases htarget
  active {lease} hactive := by
    rw [update_of_ne (hother lease hactive)]
    exact h.active hactive
  builds := h.builds

theorem invalidateKey (key : String) :
    Floored digest (update floor key cache.buildSeq)
      (cache.invalidateKey digest key) := by
  rcases invalidateKey_cases digest cache key with ⟨heq, hother⟩ | heq
  · rw [heq]
    exact h.bump key hother
  · rw [heq]
    -- without an active lease there is none of the key
    have hgone : Floored digest floor { cache with active := none } :=
      { h with active := fun hactive => by cases hactive }
    have hbump := hgone.bump key fun lease hactive => by cases hactive
    rw [cancelActive_eq]
    exact { hbump with }

theorem Close : Floored digest floor cache.Close := by
  rw [ClientCache.Close]
  split
  · exact h
  · rw [cancelActive_eq]
    exact { h with
      entry := fun hentry => by cases hentry
      active := fun hactive => by cases hactive }

end

end Floored

end Builds

/-! ## Sections

What each critical section does to the leases, the floor and the tickets. -/

section Sections

variable {digest} {floor : String → Nat} {cache : ClientCache} {issued : List Lease}

def ticketOf : Entered → Option Ticket
  | .returned _ => none
  | .building ticket => some ticket
  | .waiting ticket => some ticket

def issueEntered (issued : List Lease) : Entered → List Lease
  | .returned result => issue issued result
  | _ => issued

theorem issue_of_mem {lease : Lease} (h : lease ∈ issued) : issue issued (.ok lease) = issued :=
  if_pos h

variable {buildKey : BuildKey} {ticket : Ticket}

theorem join_ticket (h : Floored digest floor cache) {descriptor : Descriptor}
    (hepoch : buildKey.epoch = cache.epochs buildKey.key)
    (hticket : ticketOf (cache.join descriptor buildKey).2 = some ticket) :
    ticket.buildKey = buildKey ∧ floor buildKey.key ≤ ticket.call := by
  rw [join] at hticket
  split at hticket
  · cases hticket
    exact ⟨rfl, h.bound _⟩
  next call hcall =>
    cases hticket
    exact ⟨rfl, h.inflight hcall hepoch⟩

structure EnterSpec (digest : List String → String) (floor : String → Nat) (issued : List Lease)
    (cache : ClientCache) (result : ClientCache × Entered) : Prop where
  live : Live result.1 (issueEntered issued result.2)
  floored : Floored digest floor result.1
  epochs : result.1.epochs = cache.epochs
  ticket : ∀ ticket, ticketOf result.2 = some ticket →
    ticket.buildKey.epoch = cache.epochs ticket.buildKey.key ∧
      floor ticket.buildKey.key ≤ ticket.call

theorem EnterSpec.join {aimed : ClientCache} (hlive : Live aimed issued)
    (hfloored : Floored digest floor aimed) (hepochs : aimed.epochs = cache.epochs)
    (descriptor : Descriptor)
    (hepoch : buildKey.epoch = cache.epochs buildKey.key) :
    EnterSpec digest floor issued cache (aimed.join descriptor buildKey) where
  live := by
    have hkept := hlive.keeps (.join aimed descriptor buildKey)
    rw [ClientCache.join] at hkept ⊢
    split at hkept <;> exact hkept
  floored := hfloored.join descriptor (hepochs ▸ hepoch)
  epochs := by
    rw [ClientCache.join]
    split <;> exact hepochs
  ticket ticket hticket := by
    obtain ⟨hkey, hfloor⟩ := join_ticket hfloored (hepochs ▸ hepoch) hticket
    rw [hkey]
    exact ⟨hepoch, hfloor⟩

theorem enter_effect (hlive : Live cache issued) (hfloored : Floored digest floor cache)
    (resolution : Resolution) :
    EnterSpec digest floor issued cache (cache.enter digest resolution) := by
  refine enter_cases digest cache resolution ?_ ?_ ?_
  · exact ⟨hlive, hfloored, rfl, fun ticket h => by cases h⟩
  · intro lease hactive
    have hissued := hlive.active lease hactive
    refine ⟨?_, hfloored, rfl, fun ticket h => by cases h⟩
    show Live cache (issue issued (.ok lease))
    rw [issue_of_mem hissued]
    exact hlive
  · rintro buildKey aimed hkey - hepoch rfl
    have hkeeps := (Keeps.aim cache buildKey).trans
      (.dropOther digest _ buildKey.key buildKey.fingerprint)
    have haimed := (hfloored.aim hepoch).dropOther buildKey.key buildKey.fingerprint
    have hepochs : ((cache.aim buildKey).dropOther digest buildKey.key
        buildKey.fingerprint).epochs = cache.epochs := by
      rw [dropOther_epochs, aim_epochs]
    have hstale : Live (((cache.aim buildKey).dropOther digest buildKey.key
        buildKey.fingerprint).dropEntry buildKey.key) issued :=
      (hlive.keeps hkeeps).keeps (.of_eq rfl rfl rfl rfl)
    refine ⟨?_, .join (hlive.keeps hkeeps) haimed hepochs _ hepoch,
      .join hstale (haimed.dropEntry _) hepochs _ hepoch⟩
    intro entry hentry
    refine ⟨(hlive.keeps hkeeps).activateLocked _ _ _, ?_, ?_, fun ticket h => by cases h⟩
    · apply haimed.activateLocked
      rw [← hkey]
      exact haimed.entry hentry
    · exact (cancelActive_epochs _).trans hepochs

theorem Live.reuse (h : Live cache issued) (ticket : Ticket) (clients : Nat) :
    Live (cache.reuse digest ticket clients).1
      (issue issued (.ok (cache.reuse digest ticket clients).2)) := by
  unfold ClientCache.reuse
  split
  next lease hlease =>
    rw [issue_of_mem (h.active lease (ClientCache.hit_eq_some hlease).1)]
    exact h
  · exact h.activateLocked _ _ _

theorem Live.built (h : Live cache issued) (ticket : Ticket) (result : Except SafeError Nat) :
    Live (cache.built digest ticket result).1
      (issue issued (cache.built digest ticket result).2) := by
  have hrecorded : Live (cache.record ticket result) issued :=
    h.keeps (.of_eq rfl rfl rfl rfl)
  unfold ClientCache.built
  split
  · exact hrecorded
  · split
    · exact hrecorded
    · cases result with
      | error err => exact hrecorded
      | ok clients => exact hrecorded.reuse ticket clients

theorem Live.woken (h : Live cache issued) (ticket : Ticket) (result : Except SafeError Nat) :
    Live (cache.woken digest ticket result).1
      (issue issued (cache.woken digest ticket result).2) := by
  unfold ClientCache.woken
  split
  · exact h
  · cases result with
    | error err => exact h
    | ok clients =>
      dsimp only
      split
      · exact h
      · exact h.reuse ticket clients

variable (cache)

theorem reuse_epochs (ticket : Ticket) (clients : Nat) :
    (cache.reuse digest ticket clients).1.epochs = cache.epochs := by
  unfold reuse
  split
  · rfl
  · exact cache.cancelActive_epochs

theorem built_epochs (ticket : Ticket) (result : Except SafeError Nat) :
    (cache.built digest ticket result).1.epochs = cache.epochs := by
  unfold built
  split
  · rfl
  · split
    · rfl
    · cases result with
      | error err => rfl
      | ok clients => exact reuse_epochs (cache.record ticket (.ok clients)) ticket clients

theorem woken_epochs (ticket : Ticket) (result : Except SafeError Nat) :
    (cache.woken digest ticket result).1.epochs = cache.epochs := by
  unfold woken
  split
  · rfl
  · cases result with
    | error err => rfl
    | ok clients =>
      dsimp only
      split
      · rfl
      · exact reuse_epochs cache ticket clients

theorem Close_epochs : cache.Close.epochs = cache.epochs := by
  rw [ClientCache.Close]
  split
  · rfl
  · exact cache.cancelActive_epochs

theorem invalidateKey_epochs (key : String) :
    (cache.invalidateKey digest key).epochs =
      update cache.epochs key (cache.epochs key + 1) := by
  rcases invalidateKey_cases digest cache key with ⟨heq, _⟩ | heq
  · rw [heq]
    rfl
  · rw [heq]
    exact (bump cache key).cancelActive_epochs

variable {cache}

theorem Held.invalidateKey (h : Held digest floor cache ticket) (key : String) :
    Held digest (update floor key cache.buildSeq) (cache.invalidateKey digest key)
      ticket where
  follows := h.follows.invalidateKey key
  epoch := by
    rw [invalidateKey_epochs]
    exact h.epoch.trans (le_update_succ cache.epochs key _)
  current hepoch := by
    rw [invalidateKey_epochs] at hepoch
    have hle := h.epoch
    by_cases hkey : ticket.buildKey.key = key
    · rw [hkey, update_self] at hepoch
      rw [hkey] at hle
      omega
    · rw [update_of_ne hkey] at hepoch ⊢
      exact h.current hepoch

end Sections

/-! ## Runs -/

section Runs

variable {digest} {floor : String → Nat} {m next : World} {action : Action}

structure Inv (digest : List String → String) (floor : String → Nat) (m : World) : Prop where
  live : Live m.cache m.issued
  floored : Floored digest floor m.cache
  tickets : ∀ {c ticket}, (m.call c).ticket? = some ticket → Held digest floor m.cache ticket
  listed : ∀ {c lease}, (m.call c).lease? = some lease → lease ∈ m.issued

theorem Inv.new : Inv digest (fun _ => 0) World.new where
  live := ⟨forall_mem_nil _, .nil, fun _ h => (by cases h), forall_mem_nil _⟩
  floored :=
    { bound := fun _ => zero_le _
      entry := fun _ => zero_le _
      epoch := fun h => (by cases h)
      inflight := fun _ _ => zero_le _
      target := fun h => (by cases h)
      active := fun _ => zero_le _
      builds := fun h => (by cases h) }
  tickets h := by cases h
  listed h := by cases h

theorem Inv.leave {raised : String → Nat} (h : Inv digest floor m) (c : Nat)
    {result : ClientCache × Except SafeError Lease}
    (hlive : Live result.1 (issue m.issued result.2)) (hfloored : Floored digest raised result.1)
    (hheld : ∀ {ticket}, Held digest floor m.cache ticket → Held digest raised result.1 ticket) :
    Inv digest raised (m.leave c result) where
  live := hlive
  floored := hfloored
  tickets {d ticket} hticket := by
    exact hheld (h.tickets
      (of_update m.call (fun phase => phase.ticket? = some ticket) hticket nofun))
  listed {d lease} hlease := by
    rcases update_cases m.call (fun phase => phase.lease? = some lease) hlease with
      ⟨_, hnew⟩ | ⟨_, hold⟩
    · obtain ⟨cache, result⟩ := result
      cases result with
      | error err => cases hnew
      | ok other =>
        cases hnew
        exact mem_issue_ok _ _
    · exact mem_issue _ (h.listed hold)

theorem Inv.setOut (h : Inv digest floor m) (c : Nat) {cache : ClientCache} {phase : Phase}
    {ticket : Ticket} (hphase : phase.ticket? = some ticket) (hlease : phase.lease? = none)
    (hlive : Live cache m.issued) (hfloored : Floored digest floor cache)
    (hnew : Held digest floor cache ticket)
    (hheld : ∀ {ticket}, Held digest floor m.cache ticket → Held digest floor cache ticket) :
    Inv digest floor { m.setCall c phase with cache := cache } where
  live := hlive
  floored := hfloored
  tickets {d other} hother := by
    rcases update_cases m.call (fun phase => phase.ticket? = some other) hother with
      ⟨_, hsame⟩ | ⟨_, hold⟩
    · cases hphase.symm.trans hsame
      exact hnew
    · exact hheld (h.tickets hold)
  listed {d lease} hmem := by
    rcases update_cases m.call (fun phase => phase.lease? = some lease) hmem with
      ⟨_, hsome⟩ | ⟨_, hold⟩
    · cases hlease.symm.trans hsome
    · exact h.listed hold

theorem Inv.entered (h : Inv digest floor m) (c : Nat) (resolution : Resolution) :
    Inv digest floor (m.entered c (m.cache.enter digest resolution)) := by
  have hspec := enter_effect h.live h.floored resolution
  have hfollows := enter_spec digest m.cache resolution
  have hheld : ∀ {ticket}, Held digest floor m.cache ticket →
      Held digest floor (m.cache.enter digest resolution).1 ticket :=
    fun hticket => hticket.of_epochs hspec.epochs (hfollows.follows _ hticket.follows)
  -- the new ticket is of the current epoch
  have hnew : ∀ {ticket}, ticketOf (m.cache.enter digest resolution).2 = some ticket →
      (m.cache.enter digest resolution).1.Follows digest ticket →
      Held digest floor (m.cache.enter digest resolution).1 ticket := by
    intro ticket hticket hfollow
    obtain ⟨hepoch, hfloor⟩ := hspec.ticket ticket hticket
    rw [← hspec.epochs] at hepoch
    exact ⟨hfollow, hepoch.le, fun _ => hfloor⟩
  have hlive := hspec.live
  rw [World.entered]
  cases hresult : (m.cache.enter digest resolution).2 with
  | returned result =>
    rw [hresult] at hlive
    exact h.leave c hlive hspec.floored hheld
  | building ticket =>
    rw [hresult] at hlive
    exact h.setOut c rfl rfl hlive hspec.floored
      (hnew (by rw [hresult]; rfl) (hfollows.building ticket hresult)) hheld
  | waiting ticket =>
    rw [hresult] at hlive
    exact h.setOut c rfl rfl hlive hspec.floored
      (hnew (by rw [hresult]; rfl) (hfollows.waiting ticket hresult)) hheld

def raise (digest : List String → String) (floor : String → Nat) (m : World) (action : Action) :
    String → Nat :=
  match action.invalidates? digest with
  | none => floor
  | some key => update floor key m.cache.buildSeq

theorem Step.inv (h : Inv digest floor m) (hstep : Step digest m action next) :
    Inv digest (raise digest floor m action) next := by
  cases hstep with
  | refuse err _ => exact h.leave _ h.live h.floored fun hticket => hticket
  | stale descriptor err _ =>
    exact h.leave _ (h.live.keeps (.invalidateKey digest _ _)) (h.floored.invalidateKey _)
      fun hticket => hticket.invalidateKey _
  | enter resolution _ => exact h.entered _ resolution
  | @built c ticket result hphase =>
    have hticket : Held digest floor m.cache ticket := h.tickets (c := c) (by rw [hphase]; rfl)
    have hspec := built_spec hticket.follows (result.map fun _ => ticket.call)
    exact h.leave c (h.live.built _ _) (h.floored.built hticket result) fun hother =>
      hother.of_epochs (built_epochs ..) (hspec.follows _ hother.follows)
  | giveUp err _ => exact h.leave _ h.live h.floored fun hticket => hticket
  | @wake c ticket result hphase hdone =>
    have hticket : Held digest floor m.cache ticket := h.tickets (c := c) (by rw [hphase]; rfl)
    have hspec := woken_spec hticket.follows result
    exact h.leave c (h.live.woken _ _) (h.floored.woken hticket hdone) fun hother =>
      hother.of_epochs (woken_epochs ..) (hspec.follows _ hother.follows)
  | @complete c result hphase =>
    refine ⟨h.live, h.floored, ?_, ?_⟩
    · intro d ticket hticket
      exact h.tickets (of_update m.call (fun phase => phase.ticket? = some ticket) hticket nofun)
    · intro d lease hlease
      rcases update_cases m.call (fun phase => phase.lease? = some lease) hlease with
        ⟨_, hsame⟩ | ⟨_, hold⟩
      · apply h.listed (c := c)
        rw [hphase]
        cases result <;> exact hsame
      · exact h.listed hold
  | invalidate descriptor =>
    exact ⟨h.live.keeps (.invalidateKey digest _ _), h.floored.invalidateKey _,
      fun hticket => (h.tickets hticket).invalidateKey _, h.listed⟩
  | close =>
    exact ⟨h.live.keeps (.Close _), h.floored.Close, fun hticket =>
      (h.tickets hticket).of_epochs (Close_epochs _) (h.tickets hticket).follows.Close, h.listed⟩
  | parentDone =>
    refine ⟨h.live.keeps ⟨rfl, fun _ hn => hn, fun _ => rfl, .inl rfl⟩, { h.floored with }, ?_,
      h.listed⟩
    intro c ticket hticket
    exact (h.tickets hticket).of_epochs rfl ((h.tickets hticket).follows.congr rfl rfl (.inl rfl))

theorem le_raise (hfloored : Floored digest floor m.cache) (action : Action) (key : String) :
    floor key ≤ raise digest floor m action key := by
  rw [raise]
  cases action.invalidates? digest with
  | none => exact le_rfl
  | some other =>
    show floor key ≤ update floor other m.cache.buildSeq key
    by_cases hkey : key = other
    · rw [hkey, update_self]
      exact hfloored.bound other
    · rw [update_of_ne hkey]

theorem Step.leaving (h : Inv digest floor m) (hstep : Step digest m action next) {c : Nat}
    {lease : Lease} (hlease : next.call c = .leaving (.ok lease)) :
    m.call c = .leaving (.ok lease) ∨ next.cache.active = some lease := by
  have hleave : ∀ {d : Nat} {result : ClientCache × Except SafeError Lease},
      (∀ other, result.2 = .ok other → result.1.active = some other) →
      (m.leave d result).call c = .leaving (.ok lease) →
      m.call c = .leaving (.ok lease) ∨ result.1.active = some lease := by
    intro d result hactive hphase
    rcases update_cases m.call (fun phase => phase = .leaving (.ok lease)) hphase with
      ⟨_, hnew⟩ | ⟨_, hold⟩
    · exact .inr (hactive lease (Phase.leaving.inj hnew))
    · exact .inl hold
  cases hstep with
  | refuse err _ => exact hleave (fun other hother => by cases hother) hlease
  | stale descriptor err _ => exact hleave (fun other hother => by cases hother) hlease
  | @enter d resolution _ =>
    have hspec := enter_spec digest m.cache resolution
    rw [World.entered] at hlease ⊢
    cases hresult : (m.cache.enter digest resolution).2 with
    | returned result =>
      rw [hresult] at hlease
      exact hleave (fun other hother => hspec.active other (hresult.trans (congrArg _ hother)))
        hlease
    | building ticket =>
      rw [hresult] at hlease
      exact .inl (of_update m.call (· = .leaving (.ok lease)) hlease nofun)
    | waiting ticket =>
      rw [hresult] at hlease
      exact .inl (of_update m.call (· = .leaving (.ok lease)) hlease nofun)
  | @built d ticket result hphase =>
    have hticket : Held digest floor m.cache ticket := h.tickets (c := d) (by rw [hphase]; rfl)
    exact hleave (built_spec hticket.follows _).lease hlease
  | giveUp err _ => exact hleave (fun other hother => by cases hother) hlease
  | @wake d ticket result hphase hdone =>
    have hticket : Held digest floor m.cache ticket := h.tickets (c := d) (by rw [hphase]; rfl)
    exact hleave (woken_spec hticket.follows result).lease hlease
  | complete _ =>
    exact .inl (of_update m.call (· = .leaving (.ok lease)) hlease nofun)
  | invalidate descriptor => exact .inl hlease
  | close => exact .inl hlease
  | parentDone => exact .inl hlease

theorem Inv.of_runs {actions : List Action} (hrun : Runs (Step digest) World.new actions m) :
    ∃ floor, Inv digest floor m := by
  induction hrun with
  | nil => exact ⟨_, .new⟩
  | snoc _ hlast ih =>
    obtain ⟨floor, h⟩ := ih
    exact ⟨_, hlast.inv h⟩

/-- Behind a state `start` a floor for one key has been kept up: a call that leaves with a lease of
the key did so before, or the lease comes from a build above the floor. -/
structure Since (digest : List String → String) (start : World) (key : String) (bound : Nat)
    (m : World) : Prop where
  inv : ∃ floor, Inv digest floor m ∧ bound ≤ floor key
  leaving : ∀ {c lease}, m.call c = .leaving (.ok lease) →
    lease.descriptor.CacheKey digest = key →
    start.call c = .leaving (.ok lease) ∨ bound ≤ lease.clients

theorem Since.step {start : World} {key : String} {bound : Nat}
    (h : Since digest start key bound m) (hstep : Step digest m action next) :
    Since digest start key bound next := by
  obtain ⟨floor, hinv, hbound⟩ := h.inv
  have hnext := hstep.inv hinv
  have hraised := hbound.trans (le_raise hinv.floored action key)
  refine ⟨⟨_, hnext, hraised⟩, ?_⟩
  intro c lease hlease hkey
  rcases hstep.leaving hinv hlease with hold | hactive
  · exact h.leaving hold hkey
  · have hfloor := hnext.floored.active hactive
    rw [hkey] at hfloor
    exact .inr (hraised.trans hfloor)

/-- What holds in every run.  Builds are numbered, so those started before a state are the numbers
below its `buildSeq`. -/
structure Guarantees (digest : List String → String) (m : World) : Prop where
  listed : ∀ {c lease}, (m.call c).lease? = some lease → lease ∈ m.issued
  single : ∀ lease ∈ m.issued, m.cache.live lease = true → m.cache.active = some lease
  increasing : m.issued.Pairwise fun earlier later => earlier.generation < later.generation
  /-- A call that completes behind an invalidation of the key with clients from before has left its
  last critical section before it, and its lease is cancelled. -/
  fenced : ∀ {action next later last final key c lease},
    action.invalidates? digest = some key → Step digest m action next →
    Runs (Step digest) next later last → last.call c = .leaving (.ok lease) →
    Step digest last (.complete c) final → lease.descriptor.CacheKey digest = key →
    lease.clients < m.cache.buildSeq →
    next.call c = .leaving (.ok lease) ∧ last.cache.live lease = false

theorem activate_guarantees {actions : List Action}
    (hrun : Runs (Step digest) World.new actions m) : Guarantees digest m := by
  obtain ⟨floor, h⟩ := Inv.of_runs hrun
  refine ⟨h.listed, h.live.single, h.live.increasing, ?_⟩
  intro action next later last final key c lease hkey hstep hlater hlease _ hdescriptor hclients
  have hstart : Since digest next key m.cache.buildSeq next := by
    refine ⟨⟨_, hstep.inv h, ?_⟩, fun hleaving _ => .inl hleaving⟩
    rw [raise, hkey]
    show m.cache.buildSeq ≤ Function.update floor key m.cache.buildSeq key
    rw [Function.update_self]
  have hlast : Since digest next key m.cache.buildSeq last :=
    hlater.invariant hstart fun hsince hnext => hsince.step hnext
  refine ⟨(hlast.leaving hlease hdescriptor).resolve_right (Nat.not_le.mpr hclients), ?_⟩
  -- a live lease would be the active one, whose clients are above the floor
  obtain ⟨raised, hinv, hbound⟩ := hlast.inv
  by_contra hlive
  rw [Bool.not_eq_false] at hlive
  have hactive := hinv.live.single lease (hinv.listed (c := c) (by rw [hlease]; rfl)) hlive
  have hfloor := hinv.floored.active hactive
  rw [hdescriptor] at hfloor
  exact absurd hclients (Nat.not_lt.mpr (hbound.trans hfloor))

end Runs

/-! ## Invalidations of other keys -/

section Others

variable {m : World} {actions : List Action} {c : Nat} {ticket : Ticket}

def invalidateAll (cache : ClientCache) (keys : List String) : ClientCache :=
  keys.foldl (fun cache key => cache.invalidateKey digest key) cache

def outcome (result : ClientCache × Except SafeError Lease) : Except SafeError Nat :=
  result.2.map Lease.clients

theorem invalidateAll_activationSeq (keys : List String) : ∀ cache : ClientCache,
    (invalidateAll digest cache keys).activationSeq = cache.activationSeq + keys.length := by
  induction keys with
  | nil => exact fun _ => rfl
  | cons key keys ih =>
    intro cache
    rw [invalidateAll, foldl_cons]
    refine (ih _).trans ?_
    rw [invalidateKey_activationSeq, length_cons]
    omega

theorem invalidateAll_closed (keys : List String) : ∀ cache : ClientCache,
    (invalidateAll digest cache keys).closed = cache.closed := by
  induction keys with
  | nil => exact fun _ => rfl
  | cons key keys ih =>
    intro cache
    rw [invalidateAll, foldl_cons]
    refine (ih _).trans ?_
    rcases invalidateKey_cases digest cache key with ⟨heq, _⟩ | heq
    · rw [heq, bump]
    · rw [heq, cancelActive_eq, bump]

/-- A call that is out of the cache when keys are invalidated, whichever they are, ends as it would
have ended without, exactly if the cache is closed, another selection has come in between anyway or
the build has failed with the same error. -/
theorem activate_undisturbed_iff (hrun : Runs (Step digest) World.new actions m)
    (hticket : (m.call c).ticket? = some ticket) (keys : List String)
    (result : Except SafeError Nat) :
    (outcome ((invalidateAll digest m.cache keys).built digest ticket result) =
        outcome (m.cache.built digest ticket result) ↔
      keys = [] ∨ m.cache.closed = true ∨ m.cache.superseded ticket = true ∨
        result = .error errGenerationChanged) ∧
    (outcome ((invalidateAll digest m.cache keys).woken digest ticket result) =
        outcome (m.cache.woken digest ticket result) ↔
      keys = [] ∨ ticket.activation ≠ m.cache.activationSeq ∨
        result = .error errGenerationChanged) := by
  obtain ⟨floor, h⟩ := Inv.of_runs hrun
  have hle := (h.tickets hticket).follows.le
  cases keys with
  | nil => simp [invalidateAll]
  | cons key keys =>
    have hseq := invalidateAll_activationSeq digest (key :: keys) m.cache
    rw [length_cons] at hseq
    have hlate : ticket.activation ≠
        (invalidateAll digest m.cache (key :: keys)).activationSeq := by
      omega
    have hsuperseded : (invalidateAll digest m.cache (key :: keys)).superseded ticket = true := by
      simp [superseded, hlate]
    rw [or_iff_right (cons_ne_nil _ _), or_iff_right (cons_ne_nil _ _)]
    unfold outcome built woken
    rw [invalidateAll_closed, hsuperseded, if_pos hlate]
    dsimp only
    constructor
    · by_cases hclosed : m.cache.closed = true
      · simp [hclosed]
      · by_cases hother : m.cache.superseded ticket = true
        · simp [hclosed, hother]
        · cases result <;> simp [hclosed, hother, Except.map, eq_comm]
    · by_cases hother : ticket.activation = m.cache.activationSeq
      · cases result with
        | error error => simp [hother, Except.map, eq_comm]
        | ok clients =>
          by_cases hclosed : m.cache.closed = true
          · simp [hother, hclosed, Except.map, errGenerationChanged, errCacheClosed]
          · simp [hother, hclosed, Except.map]
      · simp [hother]

end Others

/-! A build, a second call that finds its lease, and an invalidation. -/

def lastPart (parts : List String) : String := parts.getLastD ""

def shop : Descriptor := ⟨["/config"], "shop"⟩

def bank : Descriptor := ⟨["/config"], "bank"⟩

def shopLease : Lease := ⟨0, 1, shop, 7⟩

def beforeInvalidate : List Action := [.enter 0 ⟨shop, 7⟩, .built 0, .enter 1 ⟨shop, 7⟩]

theorem runs_beforeInvalidate : ∃ m, Runs (Step lastPart) World.new beforeInvalidate m ∧
    m.issued = [shopLease] ∧ m.cache.active = some shopLease ∧ m.cache.buildSeq = 1 ∧
    m.call 1 = .leaving (.ok shopLease) := by
  apply runs_cons (.enter _ rfl)
  apply runs_cons (.built (.ok ()) rfl)
  apply runs_cons (.enter _ rfl)
  exact ⟨_, .nil _, rfl, rfl, rfl, rfl⟩

/-- The second call returns behind the invalidation, with a lease that is cancelled. -/
theorem activate_guarantees_shop : ∃ m next final,
    Runs (Step lastPart) World.new beforeInvalidate m ∧ m.issued = [shopLease] ∧
      Step lastPart m (.invalidate shop) next ∧ Step lastPart next (.complete 1) final ∧
      next.cache.live shopLease = false := by
  obtain ⟨m, hrun, hissued, _, hseq, hleaving⟩ := runs_beforeInvalidate
  have hcomplete : Step lastPart
      { m with cache := m.cache.invalidateKey lastPart (shop.CacheKey lastPart) } (.complete 1) _ :=
    .complete hleaving
  refine ⟨m, _, _, hrun, hissued, .invalidate shop, hcomplete, ?_⟩
  refine ((activate_guarantees hrun).fenced rfl (.invalidate shop) (.nil _) hleaving hcomplete rfl
    ?_).2
  rw [hseq]
  decide

/-- The clients of the only build are returned for the key after the key has been invalidated. -/
theorem invalidated_clients_returned : ∃ m next final,
    Runs (Step lastPart) World.new beforeInvalidate m ∧
      Step lastPart m (.invalidate shop) next ∧ Step lastPart next (.complete 1) final ∧
      final.call 1 = .returned (.ok shopLease) ∧ shopLease.clients < m.cache.buildSeq := by
  obtain ⟨m, hrun, _, _, hseq, hleaving⟩ := runs_beforeInvalidate
  refine ⟨m, _, _, hrun, .invalidate shop, .complete hleaving, rfl, ?_⟩
  rw [hseq]
  decide

theorem activate_undisturbed_shop : ∃ m, Runs (Step lastPart) World.new [.enter 0 ⟨shop, 7⟩] m ∧
    outcome ((invalidateAll lastPart m.cache ["bank"]).built lastPart ⟨shop, ⟨"shop", 7, 0⟩, 1, 0⟩
      (.ok 0)) ≠ outcome (m.cache.built lastPart ⟨shop, ⟨"shop", 7, 0⟩, 1, 0⟩ (.ok 0)) := by
  have hrun : Runs (Step lastPart) World.new [.enter 0 ⟨shop, 7⟩] _ := .single (.enter _ rfl)
  refine ⟨_, hrun, fun heq => ?_⟩
  have hcases := (activate_undisturbed_iff lastPart (c := 0) hrun rfl ["bank"] (.ok 0)).1.mp heq
  revert hcases
  decide

/-- The clients of one context are dropped because the entry of another one is invalidated while
they are built. -/
theorem activate_disturbed : bank.CacheKey lastPart ≠ shop.CacheKey lastPart ∧
    (∃ m, Runs (Step lastPart) World.new [.enter 0 ⟨shop, 7⟩, .built 0] m ∧
      m.call 0 = .leaving (.ok shopLease)) ∧
    ∃ m, Runs (Step lastPart) World.new [.enter 0 ⟨shop, 7⟩, .invalidate bank, .built 0] m ∧
      m.call 0 = .leaving (.error errGenerationChanged) := by
  refine ⟨by decide, ?_, ?_⟩
  · apply runs_cons (.enter _ rfl)
    apply runs_cons (.built (.ok ()) rfl)
    exact ⟨_, .nil _, rfl⟩
  · apply runs_cons (.enter _ rfl)
    apply runs_cons (.invalidate bank)
    apply runs_cons (.built (.ok ()) rfl)
    exact ⟨_, .nil _, rfl⟩

end Kubepeep.Kubernetes.Leases
