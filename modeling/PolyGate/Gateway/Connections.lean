import PolyGate.Lib.Threads
import PolyGate.Gateway.DecisionStore

/-!
# `Gateway/Connections.lean` — the cache's connection under threads

`Cache` of `gateway/app/cache.py` again, now with every read and write of `_r` and `_last_attempt`,
every operation of the lock and every call to Redis a command of its own, so that the request
threads can come between any two of them. `_invalidate` takes no lock, and drops whatever client is
there.

The threads agree on little (`rely`): whoever holds the lock is the only one to write
`_last_attempt` and to begin an attempt. That is enough for the backoff.
-/

namespace PolyGate.Gateway.Connections

open Lib DecisionStore

/-! ## The cache -/

/-- Which of the clients that `from_url` has made. -/
abbrev Client := Nat

inductive Exc | redisError | typeError | valueError | parse (e : DecisionStore.Exc)
  deriving DecidableEq, Repr

/-- What a client is asked for. -/
inductive Request
  | get (key : String)
  | set (key : String) (value : PyStr) (ex : Nat)

abbrev Request.Reply : Request → Type
  | .get _ => Option Raw
  | .set .. => Unit

inductive Cmd
  | readR
  | writeR (r : Option Client)
  | readLastAttempt
  | writeLastAttempt (now : Time)
  | monotonic
  | acquire
  | release
  | fromUrl
  | ping (client : Client)
  | send (client : Client) (request : Request)

abbrev Cmd.Reply : Cmd → Type
  | .readR => Option Client
  | .readLastAttempt => Option Time
  | .monotonic => Time
  | .fromUrl => Client
  | .send _ request => request.Reply
  | .writeR _ | .writeLastAttempt _ | .acquire | .release | .ping _ => Unit

abbrev Call := Prog Cmd Cmd.Reply Exc

def readR : Call (Option Client) := Prog.perform Cmd.readR

def readLastAttempt : Call (Option Time) := Prog.perform Cmd.readLastAttempt

def monotonic : Call Time := Prog.perform Cmd.monotonic

/-- `with self._lock` -/
def withLock {α : Type} (body : Call α) : Call α := do
  Prog.perform Cmd.acquire
  body.andThen fun o => do
    Prog.perform Cmd.release
    Prog.ofOutcome o

/-- `self._r is not None` -/
def hasClient : Call Bool := do
  let r ← readR
  return r.isSome

def invalidate : Call Unit := Prog.perform (Cmd.writeR none)

section
variable (installed : Bool) (backoffSeconds : Time)

def connect : Call (Option Client) :=
  if installed then
    tryCatch
      (do
        let client : Client ← Prog.perform Cmd.fromUrl
        Prog.perform (Cmd.ping client)
        return some client)
      fun _ => return none
  else return none

/-- Still in the backoff window; `_last_attempt` is read a second time for the subtraction. -/
def backsOff (now : Time) : Call Bool := do
  let last ← readLastAttempt
  match last with
  | none => return false
  | some _ => do
    let last ← readLastAttempt
    match last with
    | none => throw .typeError
    | some last => return decide (now - last < backoffSeconds)

/-- What follows both checks under the lock. -/
def attempt (now : Time) : Call (Option Client) := do
  Prog.perform (Cmd.writeLastAttempt now)
  let client ← connect installed
  Prog.perform (Cmd.writeR client)
  readR

/-- The block under the lock. -/
def reconnect : Call (Option Client) := do
  let ready ← hasClient
  if ready then readR else do
  let now ← monotonic
  let early ← backsOff backoffSeconds now
  if early then return none else attempt installed now

def getClient : Call (Option Client) := do
  let ready ← hasClient
  if ready then readR else do
  let now ← monotonic
  let early ← backsOff backoffSeconds now
  if early then return none else withLock (reconnect installed backoffSeconds)

/-- A request in its `try`; a `RedisError` drops the client. -/
def asked (client : Client) (request : Request) (fallback : request.Reply) :
    Call request.Reply :=
  tryCatch (Prog.perform (Cmd.send client request)) fun e : Exc =>
    if e = .redisError then do
      invalidate
      return fallback
    else throw e

inductive Op
  | get (key : String)
  | set (key : String) (value : Json) (ttl : Nat)
  | enabled

inductive Answer
  | value (v : Json)
  | done
  | flag (b : Bool)

/-- `get`; a request that fails comes to `None`, as one that brings `None` does. -/
def get (key : String) : Call Answer := do
  let client ← getClient installed backoffSeconds
  match client with
  | none => return .value .null
  | some client => do
    let raw : Option Raw ← asked client (.get key) none
    Prog.ofOutcome (((Cache.parsed raw).mapError .parse).map .value)

def set (key : String) (value : Json) (ttl : Nat) : Call Answer := do
  let client ← getClient installed backoffSeconds
  match client with
  | none => return .done
  | some client => do
    let () ← asked client (.set key (dumps value) ttl) ()
    return .done

def enabled : Call Answer := do
  let client ← getClient installed backoffSeconds
  return .flag client.isSome

def program : Op → Call Answer
  | .get key => get installed backoffSeconds key
  | .set key value ttl => set installed backoffSeconds key value ttl
  | .enabled => enabled installed backoffSeconds

end

/-! ## The world -/

/-- An attempt to connect: what `_last_attempt` says of it, and when it was begun. -/
structure Attempt where
  reading : Option Time
  begun : Time

structure World (ι : Type) where
  r : Option Client
  lastAttempt : Option Time
  lock : Option ι
  clock : Time
  /-- nothing that Redis is asked fails -/
  reachable : Bool
  clients : Nat
  /-- the clients whose `ping` was answered -/
  connected : List Client
  attempts : List Attempt
  sent : List (Client × Request)

variable {ι : Type}

/-- What each command does in thread `i`. A request to an unreachable Redis may raise, and one to a
Redis that is reachable raises no `RedisError`. -/
def does (i : ι) : Exec Cmd Cmd.Reply Exc (World ι) := fun s c v s' =>
  match c, v with
  | .readR, v => v = .ok s.r ∧ s' = s
  | .writeR r, v => v = .ok () ∧ s' = { s with r := r }
  | .readLastAttempt, v => v = .ok s.lastAttempt ∧ s' = s
  | .writeLastAttempt now, v => v = .ok () ∧ s' = { s with lastAttempt := some now }
  | .monotonic, v => v = .ok s.clock ∧ s' = s
  | .acquire, v => s.lock = none ∧ v = .ok () ∧ s' = { s with lock := some i }
  | .release, v => v = .ok () ∧ s' = { s with lock := none }
  | .fromUrl, v => (v = .ok s.clients ∨ s.reachable = false ∧ v = .error .valueError) ∧
      s' = { s with
        clients := s.clients + 1
        attempts := s.attempts ++ [⟨s.lastAttempt, s.clock⟩] }
  | .ping client, v =>
      v = .ok () ∧ s' = { s with connected := client :: s.connected } ∨
      s.reachable = false ∧ v = .error .redisError ∧ s' = s
  | .send client request, v => (s.reachable → v ≠ .error .redisError) ∧
      s' = { s with sent := s.sent ++ [(client, request)] }

/-- The clock does not go back; Redis goes away and comes back as it likes. -/
def outside (s s' : World ι) : Prop :=
  ∃ clock reachable, s.clock ≤ clock ∧ s' = { s with clock := clock, reachable := reachable }

abbrev System (ι : Type) := Threads ι (World ι) Op Cmd Cmd.Reply Exc Answer

/-- A new cache before its first `_get_client()`. -/
def World.new (clock : Time) : World ι where
  r := none
  lastAttempt := none
  lock := none
  clock := clock
  reachable := false
  clients := 0
  connected := []
  attempts := []
  sent := []

def System.start (clock : Time) : System ι := ⟨.new clock, fun _ => none⟩

abbrev System.Label (ι : Type) := Threads.Label ι Op Cmd Exc Answer

/-- The threads and the outside; `__init__` asks for a client as `enabled` does. -/
def System.step [DecidableEq ι] (installed : Bool) (backoffSeconds : Time) :
    System ι → System.Label ι → System ι → Prop :=
  Threads.Step does outside (program installed backoffSeconds)

/-! ## What the threads leave each other -/

/-- The reading of `a` is at least the backoff before that of `b`. -/
def Apart (backoffSeconds : Time) (a b : Attempt) : Prop :=
  ∃ x y, a.reading = some x ∧ b.reading = some y ∧ x + backoffSeconds ≤ y

/-- `_last_attempt` is the reading of some attempt. -/
def World.Recorded (installed : Bool) (s : World ι) : Prop :=
  installed = true → ∀ l, s.lastAttempt = some l → ∃ a ∈ s.attempts, a.reading = some l

structure World.Inv (installed : Bool) (backoffSeconds : Time) (s : World ι) : Prop where
  apart : s.attempts.Pairwise (Apart backoffSeconds)
  dated : ∀ a ∈ s.attempts, ∃ x l, a.reading = some x ∧ s.lastAttempt = some l ∧
    x ≤ a.begun ∧ x ≤ l
  past : ∀ l, s.lastAttempt = some l → l ≤ s.clock
  recorded : s.lock = none → s.Recorded installed
  usable : ∀ c, s.r = some c → c ∈ s.connected

/-- What a thread can count on: while it holds the lock, nobody else dates or begins attempts. -/
structure Rely (inv : World ι → Prop) (i : ι) (s s' : World ι) : Prop where
  keeps : inv s → inv s'
  clock : s.clock ≤ s'.clock
  lock : s'.lock = some i ↔ s.lock = some i
  frozen : s.lock = some i → s'.lastAttempt = s.lastAttempt ∧ s'.attempts = s.attempts
  connected : ∀ c ∈ s.connected, c ∈ s'.connected

theorem Rely.refl {inv : World ι → Prop} (i : ι) (s : World ι) : Rely inv i s s :=
  ⟨id, le_refl _, Iff.rfl, fun _ => ⟨rfl, rfl⟩, fun _ h => h⟩

/-- Others may take several steps in between. -/
theorem Rely.trans {inv : World ι → Prop} (i : ι) (a b c : World ι) (h : Rely inv i a b)
    (h' : Rely inv i b c) : Rely inv i a c where
  keeps := h'.keeps ∘ h.keeps
  clock := h.clock.trans h'.clock
  lock := h'.lock.trans h.lock
  frozen hl := by
    obtain ⟨hlast, hattempts⟩ := h.frozen hl
    obtain ⟨hlast', hattempts'⟩ := h'.frozen (h.lock.mpr hl)
    exact ⟨hlast'.trans hlast, hattempts'.trans hattempts⟩
  connected c hc := h'.connected c (h.connected c hc)

/-- What a thread does to the others. -/
structure Guar (inv : World ι → Prop) (i : ι) (s s' : World ι) : Prop where
  keeps : inv s → inv s'
  others : ∀ j, j ≠ i → Rely inv j s s'

/-- What a thread promises the others, from what each command does. -/
theorem guar_of {inv : World ι → Prop} {i : ι} {s s' : World ι} (keeps : inv s → inv s')
    (clock : s'.clock = s.clock) (lock : ∀ j, j ≠ i → (s'.lock = some j ↔ s.lock = some j))
    (frozen : s.lock = some i ∨ s'.lastAttempt = s.lastAttempt ∧ s'.attempts = s.attempts)
    (connected : ∀ c ∈ s.connected, c ∈ s'.connected) : Guar inv i s s' := by
  refine ⟨keeps, fun j hj => ⟨keeps, clock.ge, lock j hj, fun hl => ?_, connected⟩⟩
  obtain hi | h := frozen
  · exact absurd (Option.some.inj (hl.symm.trans hi)) hj
  · exact h

theorem guar_refl {inv : World ι → Prop} (i : ι) (s : World ι) : Guar inv i s s :=
  ⟨id, fun j _ => .refl j s⟩

section
variable {installed : Bool} {backoffSeconds : Time} {i : ι}

/-- A program of thread `i` beside the other threads. -/
abbrev Safely {α : Type} (installed : Bool) (backoffSeconds : Time) (i : ι)
    (post : Except Exc α → World ι → Prop) (p : Call α) (s : World ι) : Prop :=
  p.Safe (does i) (Rely (World.Inv installed backoffSeconds) i)
    (fun a _ b _ => Guar (World.Inv installed backoffSeconds) i a b) post s

/-- Thread `i` is not in the block under the lock. -/
structure World.Free (installed : Bool) (backoffSeconds : Time) (i : ι) (s : World ι) : Prop where
  inv : s.Inv installed backoffSeconds
  lock : s.lock ≠ some i

/-- Thread `i` is in the block under the lock, and not between `_last_attempt = now` and the
attempt. -/
structure World.Held (installed : Bool) (backoffSeconds : Time) (i : ι) (s : World ι) : Prop where
  inv : s.Inv installed backoffSeconds
  lock : s.lock = some i
  recorded : s.Recorded installed

/-- What the others cannot make false. -/
def Stable (installed : Bool) (backoffSeconds : Time) (i : ι) (P : World ι → Prop) : Prop :=
  ∀ a b, Rely (World.Inv installed backoffSeconds) i a b → P a → P b

theorem Stable.and {P P' : World ι → Prop} (h : Stable installed backoffSeconds i P)
    (h' : Stable installed backoffSeconds i P') :
    Stable installed backoffSeconds i fun s => P s ∧ P' s :=
  fun a b hr hP => ⟨h a b hr hP.1, h' a b hr hP.2⟩

/-- A thread without the lock stays without it, whatever the others do. -/
theorem stable_free : Stable installed backoffSeconds i (World.Free installed backoffSeconds i) :=
  fun _ _ hr h => ⟨hr.keeps h.inv, fun hl => h.lock (hr.lock.mp hl)⟩

/-- A thread with the lock keeps it. -/
theorem stable_held :
    Stable installed backoffSeconds i (World.Held installed backoffSeconds i) := by
  intro a b hr h
  obtain ⟨hlast, hattempts⟩ := hr.frozen h.lock
  refine ⟨hr.keeps h.inv, hr.lock.mpr h.lock, ?_⟩
  simpa [World.Recorded, hlast, hattempts] using h.recorded

theorem stable_clock (now : Time) : Stable installed backoffSeconds i fun s => now ≤ s.clock :=
  fun _ _ hr h => h.trans hr.clock

/-- What holds under the lock of the two fields that only its holder writes. -/
theorem stable_frozen {P : Option Time → List Attempt → Prop} :
    Stable installed backoffSeconds i
      fun s => s.lock = some i ∧ P s.lastAttempt s.attempts := by
  rintro a b hr ⟨hl, hP⟩
  obtain ⟨hlast, hattempts⟩ := hr.frozen hl
  refine ⟨hr.lock.mpr hl, ?_⟩
  rwa [hlast, hattempts]

/-- A read. -/
theorem safe_read {c : Cmd} {P : World ι → Prop} {Q : Except Exc c.Reply → World ι → Prop}
    {s : World ι} (hs : P s) (hP : Stable installed backoffSeconds i P)
    (hread : ∀ t v t', does i t c v t' → t' = t)
    (hQ : ∀ t v t', P t → does i t c v t' →
      ∀ t'', Rely (World.Inv installed backoffSeconds) i t t'' → Q v t'') :
    Safely installed backoffSeconds i Q (Prog.perform c) s := by
  refine Prog.safe_perform fun t ht v t' hx => ?_
  obtain rfl := hread t v t' hx
  exact ⟨guar_refl i t', hQ t' v t' (hP s t' ht hs) hx⟩

variable {P : World ι → Prop} {s : World ι}

theorem safe_readR (hs : P s) (hP : Stable installed backoffSeconds i P) :
    Safely installed backoffSeconds i (fun o t => o ≠ .error .redisError ∧ P t) readR s := by
  refine safe_read hs hP (fun t v t' hx => hx.2) ?_
  rintro t v t' ht ⟨rfl, -⟩ t'' hr
  exact ⟨nofun, hP t t'' hr ht⟩

theorem safe_hasClient (hs : P s) (hP : Stable installed backoffSeconds i P) :
    Safely installed backoffSeconds i (fun o t => o ≠ .error .redisError ∧ P t) hasClient s := by
  refine Prog.Safe.bind (Rely.refl i) (safe_readR hs hP) (fun a t h t' hr => ?_) fun e t h => ?_
  · exact ⟨nofun, hP t t' hr h.2⟩
  · exact ⟨fun he => h.1 (by simpa using he), h.2⟩

/-- The clock is read, and nothing since is later. -/
theorem safe_monotonic (hs : P s) (hP : Stable installed backoffSeconds i P)
    (hlast : ∀ t, P t → t.Inv installed backoffSeconds) :
    Safely installed backoffSeconds i (fun o t => P t ∧ ∃ now, o = .ok now ∧ now ≤ t.clock ∧
      (t.lock = some i → ∀ l, t.lastAttempt = some l → l ≤ now)) monotonic s := by
  refine safe_read hs hP (fun t v t' hx => hx.2) ?_
  rintro t v t' ht ⟨rfl, -⟩ t'' hr
  refine ⟨hP t t'' hr ht, t.clock, rfl, hr.clock, fun hl l hlt => ?_⟩
  rw [(hr.frozen (hr.lock.mp hl)).1] at hlt
  exact (hlast t ht).past l hlt

/-- The backoff is over. -/
def World.Due (backoffSeconds now : Time) (s : World ι) : Prop :=
  ∀ l, s.lastAttempt = some l → l + backoffSeconds ≤ now

/-- What is read under the lock stays true there. -/
theorem safe_readLastAttempt (hs : P s) (hP : Stable installed backoffSeconds i P) :
    Safely installed backoffSeconds i (fun o t => P t ∧ ∃ last, o = .ok last ∧
      (t.lock = some i → t.lastAttempt = last)) readLastAttempt s := by
  refine safe_read hs hP (fun t v t' hx => hx.2) ?_
  rintro t v t' ht ⟨rfl, -⟩ t'' hr
  exact ⟨hP t t'' hr ht, _, rfl, fun hl => (hr.frozen (hr.lock.mp hl)).1⟩

/-- Under the lock, not to back off means that the attempt is due. -/
theorem safe_backsOff {now : Time} (hs : P s) (hP : Stable installed backoffSeconds i P) :
    Safely installed backoffSeconds i (fun o t => P t ∧ o ≠ .error .redisError ∧
      (o = .ok false → t.lock = some i → t.Due backoffSeconds now))
      (backsOff backoffSeconds now) s := by
  refine (safe_readLastAttempt hs hP).bind (Rely.refl i) ?_ (by simp)
  rintro first t ⟨ht, _, ⟨⟩, hfirst⟩
  cases first with
  | none =>
    refine fun t' hr => ⟨hP t t' hr ht, nofun, fun _ hl l hlt => ?_⟩
    have hl' := hr.lock.mp hl
    simp [(hr.frozen hl').1, hfirst hl'] at hlt
  | some _ =>
    refine (safe_readLastAttempt ht hP).bind (Rely.refl i) ?_ (by simp)
    rintro last t ⟨ht, _, ⟨⟩, hlast⟩
    cases last with
    | none => exact fun t' hr => ⟨hP t t' hr ht, nofun, nofun⟩
    | some last =>
      refine fun t' hr => ⟨hP t t' hr ht, nofun, fun hlate hl l hlt => ?_⟩
      have hl' := hr.lock.mp hl
      obtain rfl : last = l := by
        rw [(hr.frozen hl').1, hlast hl'] at hlt
        exact Option.some.inj hlt
      have hge : ¬ now - last < backoffSeconds := by simpa using hlate
      linarith

/-! ## One attempt -/

/-- Between `_last_attempt = now` and the attempt. -/
structure World.Starting (installed : Bool) (backoffSeconds : Time) (i : ι) (now : Time)
    (s : World ι) : Prop where
  inv : s.Inv installed backoffSeconds
  mine : s.lock = some i ∧ s.lastAttempt = some now ∧
    ∀ a ∈ s.attempts, ∃ x, a.reading = some x ∧ x + backoffSeconds ≤ now

/-- Between its reading and its attempt nobody else attempts. -/
theorem World.Starting.stable {now : Time} {t : World ι}
    (h : s.Starting installed backoffSeconds i now)
    (hr : Rely (World.Inv installed backoffSeconds) i s t) :
    t.Starting installed backoffSeconds i now :=
  ⟨hr.keeps h.inv, stable_frozen (P := fun l as => l = some now ∧
    ∀ a ∈ as, ∃ x, a.reading = some x ∧ x + backoffSeconds ≤ now) s t hr h.mine⟩

/-- `_last_attempt` moves on. -/
theorem safe_writeLastAttempt {now : Time} (h : s.Held installed backoffSeconds i)
    (hnow : now ≤ s.clock) (hlast : s.lock = some i ∧ ∀ l, s.lastAttempt = some l → l ≤ now)
    (hdue : s.lock = some i ∧ s.Due backoffSeconds now) :
    Safely installed backoffSeconds i
      (fun o t => o = .ok () ∧ t.Starting installed backoffSeconds i now)
      (Prog.perform (Cmd.writeLastAttempt now)) s := by
  refine Prog.safe_perform ?_
  rintro t hr _ _ ⟨rfl, rfl⟩
  have ht := stable_held s t hr h
  have hbefore := (stable_frozen (P := fun l _ => ∀ x, l = some x → x ≤ now) s t hr hlast).2
  have hpast := (stable_frozen (P := fun l _ => ∀ x, l = some x → x + backoffSeconds ≤ now)
    s t hr hdue).2
  have hinv : World.Inv installed backoffSeconds { t with lastAttempt := some now } := by
    refine ⟨ht.inv.apart, fun a ha => ?_, ?_, fun hl => ?_, ht.inv.usable⟩
    · obtain ⟨x, l, hx, hl, hbegun, hle⟩ := ht.inv.dated a ha
      exact ⟨x, now, hx, rfl, hbegun, hle.trans (hbefore l hl)⟩
    · rintro l ⟨⟩
      exact hnow.trans hr.clock
    · exact absurd (ht.lock.symm.trans hl) nofun
  refine ⟨guar_of (fun _ => hinv) rfl (fun _ _ => Iff.rfl) (.inl ht.lock) fun _ h => h,
    fun t'' hr' => ⟨rfl, World.Starting.stable ⟨hinv, ht.lock, rfl, fun a ha => ?_⟩ hr'⟩⟩
  obtain ⟨x, l, hx, hl, -, hle⟩ := ht.inv.dated a ha
  exact ⟨x, hx, by linarith [hpast l hl]⟩

/-- The attempt is begun the backoff after the readings of all before it. -/
theorem safe_fromUrl {now : Time} (h : s.Starting installed backoffSeconds i now) :
    Safely installed backoffSeconds i (fun _ t => t.Held installed backoffSeconds i)
      (Prog.perform Cmd.fromUrl) s := by
  refine Prog.safe_perform ?_
  rintro t hr v _ ⟨-, rfl⟩
  obtain ⟨hinv, hlock, hlast, hbefore⟩ := h.stable hr
  have hnew : World.Inv installed backoffSeconds { t with
      clients := t.clients + 1
      attempts := t.attempts ++ [⟨t.lastAttempt, t.clock⟩] } := by
    refine ⟨?_, fun a ha => ?_, hinv.past, fun hl => ?_, hinv.usable⟩
    · refine List.pairwise_append.mpr ⟨hinv.apart, List.pairwise_singleton .., fun a ha b hb => ?_⟩
      obtain rfl := List.mem_singleton.mp hb
      obtain ⟨x, hx, hle⟩ := hbefore a ha
      exact ⟨x, now, hx, hlast, hle⟩
    · obtain ha | ha := List.mem_append.mp ha
      · exact hinv.dated a ha
      · obtain rfl := List.mem_singleton.mp ha
        exact ⟨now, now, hlast, hlast, hinv.past now hlast, le_refl _⟩
    · exact absurd (hlock.symm.trans hl) nofun
  refine ⟨guar_of (fun _ => hnew) rfl (fun _ _ => Iff.rfl) (.inl hlock) fun _ h => h,
    fun t'' hr' => stable_held _ _ hr' ⟨hnew, hlock, fun _ l hl => ?_⟩⟩
  exact ⟨_, List.mem_append_right _ (List.mem_singleton_self _), hl⟩

/-- A step that touches none of what the invariant is about, but for more clients that answer. -/
theorem held_step {t t' : World ι} (ht : t.Held installed backoffSeconds i)
    (hinv : t'.Inv installed backoffSeconds) (hlock : t'.lock = t.lock)
    (hlast : t'.lastAttempt = t.lastAttempt) (hattempts : t'.attempts = t.attempts)
    (hclock : t'.clock = t.clock) (hconnected : ∀ c ∈ t.connected, c ∈ t'.connected) :
    Guar (World.Inv installed backoffSeconds) i t t' ∧ t'.Held installed backoffSeconds i := by
  refine ⟨guar_of (fun _ => hinv) hclock (fun _ _ => by rw [hlock]) (.inl ht.lock) hconnected,
    hinv, hlock.trans ht.lock, ?_⟩
  simpa [World.Recorded, hlast, hattempts] using ht.recorded

/-- A ping that is answered makes its client a connected one. -/
theorem safe_ping {client : Client} (h : s.Held installed backoffSeconds i) :
    Safely installed backoffSeconds i
      (fun o t => t.Held installed backoffSeconds i ∧ (o = .ok () → client ∈ t.connected))
      (Prog.perform (Cmd.ping client)) s := by
  refine Prog.safe_perform ?_
  rintro t hr v t' (⟨rfl, rfl⟩ | ⟨-, rfl, rfl⟩)
  · have ht := stable_held s t hr h
    have hinv : World.Inv installed backoffSeconds
        { t with connected := client :: t.connected } :=
      ⟨ht.inv.apart, ht.inv.dated, ht.inv.past, ht.inv.recorded,
        fun c hc => List.mem_cons_of_mem _ (ht.inv.usable c hc)⟩
    obtain ⟨hguar, hheld⟩ := held_step ht hinv rfl rfl rfl rfl fun c hc => List.mem_cons_of_mem _ hc
    exact ⟨hguar, fun t'' hr' => ⟨stable_held _ _ hr' hheld,
      fun _ => hr'.connected _ List.mem_cons_self⟩⟩
  · exact ⟨guar_refl i _, fun t'' hr' => ⟨stable_held _ _ (hr.trans _ _ _ _ hr') h, nofun⟩⟩

/-- Whatever happens, `_connect` comes to a client that has answered, or to none. -/
theorem safe_connect {now : Time} (h : s.Starting installed backoffSeconds i now) :
    Safely installed backoffSeconds i
      (fun o t => t.Held installed backoffSeconds i ∧
        ∃ r, o = .ok r ∧ ∀ c, r = some c → c ∈ t.connected) (connect installed) s := by
  unfold connect
  split
  · rename_i hinstalled
    refine Prog.Safe.catch (Rely.refl i) (((safe_fromUrl h).bind (Rely.refl i) ?_ ?_ :
      Safely installed backoffSeconds i (fun o t => t.Held installed backoffSeconds i ∧
        ∀ r, o = .ok r → ∃ c, r = some c ∧ c ∈ t.connected) _ s)) ?_ ?_
    · intro client t ht
      refine (safe_ping ht).bind (Rely.refl i) (fun _ t h t' hr => ?_) fun e t h => ⟨h.1, nofun⟩
      refine ⟨stable_held t t' hr h.1, ?_⟩
      rintro _ ⟨⟩
      exact ⟨client, rfl, hr.connected _ (h.2 rfl)⟩
    · exact fun e t ht => ⟨ht, nofun⟩
    · exact fun e t ht t' hr => ⟨stable_held t t' hr ht.1, none, rfl, nofun⟩
    · rintro r t ⟨ht, hall⟩
      obtain ⟨c, rfl, hc⟩ := hall r rfl
      refine ⟨ht, _, rfl, ?_⟩
      rintro _ ⟨⟩
      exact hc
  · rename_i hmissing
    refine fun t hr => ?_
    obtain ⟨hinv, hlock, -⟩ := h.stable hr
    exact ⟨⟨hinv, hlock, fun hinstalled => absurd hinstalled hmissing⟩, none, rfl, nofun⟩

/-- Only connected clients are written to `_r`. -/
theorem safe_writeR {r : Option Client} (h : s.Held installed backoffSeconds i)
    (hr : ∀ c, r = some c → c ∈ s.connected) :
    Safely installed backoffSeconds i (fun o t => o = .ok () ∧ t.Held installed backoffSeconds i)
      (Prog.perform (Cmd.writeR r)) s := by
  refine Prog.safe_perform ?_
  rintro t hrely _ _ ⟨rfl, rfl⟩
  have ht := stable_held s t hrely h
  have hinv : World.Inv installed backoffSeconds { t with r := r } :=
    ⟨ht.inv.apart, ht.inv.dated, ht.inv.past, ht.inv.recorded,
      fun c hc => hrely.connected c (hr c hc)⟩
  obtain ⟨hguar, hheld⟩ := held_step ht hinv rfl rfl rfl rfl fun _ hc => hc
  exact ⟨hguar, fun t'' hr' => ⟨rfl, stable_held _ _ hr' hheld⟩⟩

/-- An attempt that is due keeps the distance of the attempts, and no error leaves it. -/
theorem safe_attempt {now : Time} (h : s.Held installed backoffSeconds i)
    (hnow : now ≤ s.clock) (hlast : ∀ l, s.lastAttempt = some l → l ≤ now)
    (hdue : s.Due backoffSeconds now) :
    Safely installed backoffSeconds i
      (fun o t => o ≠ .error .redisError ∧ t.Held installed backoffSeconds i)
      (attempt installed now) s := by
  refine (safe_writeLastAttempt h hnow ⟨h.lock, hlast⟩ ⟨h.lock, hdue⟩).bind (Rely.refl i) ?_
    (by simp)
  rintro ⟨⟩ t ⟨-, ht⟩
  refine (safe_connect ht).bind (Rely.refl i) ?_ (by simp)
  rintro r t ⟨ht, _, ⟨⟩, hr⟩
  refine (safe_writeR ht hr).bind (Rely.refl i) ?_ (by simp)
  rintro ⟨⟩ t ⟨-, ht⟩
  exact safe_readR ht stable_held

/-- The block under the lock. -/
theorem safe_reconnect (h : s.Held installed backoffSeconds i) :
    Safely installed backoffSeconds i
      (fun o t => o ≠ .error .redisError ∧ t.Held installed backoffSeconds i)
      (reconnect installed backoffSeconds) s := by
  refine (safe_hasClient h stable_held).bind (Rely.refl i) ?_ fun e t ht =>
    ⟨fun he => ht.1 (by simpa using he), ht.2⟩
  rintro ready t ⟨-, ht⟩
  cases ready with
  | true => exact safe_readR ht stable_held
  | false =>
    refine (safe_monotonic ht stable_held fun _ h => h.inv).bind (Rely.refl i) ?_ (by simp)
    rintro now t ⟨ht, _, ⟨⟩, hnow, hlast⟩
    have hstable : Stable installed backoffSeconds i fun s =>
        s.Held installed backoffSeconds i ∧ now ≤ s.clock ∧ s.lock = some i ∧
          ∀ x, s.lastAttempt = some x → x ≤ now :=
      stable_held.and ((stable_clock now).and
        (stable_frozen (P := fun l _ => ∀ x, l = some x → x ≤ now)))
    refine (safe_backsOff ⟨ht, hnow, ht.lock, hlast ht.lock⟩ hstable).bind (Rely.refl i) ?_
      fun e t ht => ⟨fun he => ht.2.1 (by simpa using he), ht.1.1⟩
    rintro early t ⟨⟨ht, hnow, -, hlast⟩, -, hdue⟩
    cases early with
    | true => exact fun t' hr => ⟨nofun, stable_held t t' hr ht⟩
    | false => exact safe_attempt ht hnow hlast (hdue rfl ht.lock)

/-- The lock makes a free thread its holder, and the holder free again. -/
theorem safe_withLock {α : Type} {body : Call α} (h : s.Free installed backoffSeconds i)
    (hbody : ∀ t : World ι, t.Held installed backoffSeconds i →
      Safely installed backoffSeconds i
        (fun o t => o ≠ .error .redisError ∧ t.Held installed backoffSeconds i) body t) :
    Safely installed backoffSeconds i
      (fun o t => o ≠ .error .redisError ∧ t.Free installed backoffSeconds i)
      (withLock body) s := by
  have hacquire : Safely installed backoffSeconds i
      (fun o t => o = .ok () ∧ t.Held installed backoffSeconds i)
      (Prog.perform Cmd.acquire) s := by
    refine Prog.safe_perform ?_
    rintro t hr _ _ ⟨hnone, rfl, rfl⟩
    have ht := stable_free s t hr h
    have hinv : ({ t with lock := some i } : World ι).Inv installed backoffSeconds :=
      ⟨ht.inv.apart, ht.inv.dated, ht.inv.past, nofun, ht.inv.usable⟩
    refine ⟨guar_of (fun _ => hinv) rfl (fun j hj => ?_) (.inr ⟨rfl, rfl⟩) fun _ hc => hc,
      fun t'' hr' => ⟨rfl, stable_held _ _ hr' ⟨hinv, rfl, ht.inv.recorded hnone⟩⟩⟩
    simpa [hnone] using hj.symm
  have hrelease : ∀ t : World ι, t.Held installed backoffSeconds i →
      Safely installed backoffSeconds i
        (fun o t => o = .ok () ∧ t.Free installed backoffSeconds i)
        (Prog.perform Cmd.release) t := by
    intro t ht
    refine Prog.safe_perform ?_
    rintro t hr _ _ ⟨rfl, rfl⟩
    have ht := stable_held _ t hr ht
    have hinv : ({ t with lock := none } : World ι).Inv installed backoffSeconds :=
      ⟨ht.inv.apart, ht.inv.dated, ht.inv.past, fun _ => ht.recorded, ht.inv.usable⟩
    refine ⟨guar_of (fun _ => hinv) rfl (fun j hj => ?_) (.inl ht.lock) fun _ hc => hc,
      fun t'' hr' => ⟨rfl, stable_free _ _ hr' ⟨hinv, nofun⟩⟩⟩
    simpa [ht.lock] using hj.symm
  refine hacquire.bind (Rely.refl i) ?_ (by simp)
  rintro ⟨⟩ t ⟨-, ht⟩
  refine (hbody t ht).andThen (Rely.refl i) ?_
  rintro o t ⟨ho, ht⟩
  refine (hrelease t ht).bind (Rely.refl i) ?_ (by simp)
  rintro ⟨⟩ t ⟨-, ht⟩
  exact Prog.safe_ofOutcome.mpr fun t' hr => ⟨ho, stable_free t t' hr ht⟩

/-- So `_get_client` raises nothing, and gives the lock back. -/
theorem safe_getClient (h : s.Free installed backoffSeconds i) :
    Safely installed backoffSeconds i
      (fun o t => o ≠ .error .redisError ∧ t.Free installed backoffSeconds i)
      (getClient installed backoffSeconds) s := by
  refine (safe_hasClient h stable_free).bind (Rely.refl i) ?_ fun e t ht =>
    ⟨fun he => ht.1 (by simpa using he), ht.2⟩
  rintro ready t ⟨-, ht⟩
  cases ready with
  | true => exact safe_readR ht stable_free
  | false =>
    refine (safe_monotonic ht stable_free fun _ h => h.inv).bind (Rely.refl i) ?_ (by simp)
    rintro now t ⟨ht, -⟩
    refine (safe_backsOff ht stable_free).bind (Rely.refl i) ?_
      fun e t ht => ⟨fun he => ht.2.1 (by simpa using he), ht.1⟩
    rintro early t ⟨ht, -⟩
    cases early with
    | true => exact fun t' hr => ⟨nofun, stable_free t t' hr ht⟩
    | false => exact safe_withLock ht fun _ => safe_reconnect

/-- A thread outside the lock may drop the client and send what it likes. -/
theorem free_step {t : World ι} (t' : World ι) (ht : t.Free installed backoffSeconds i)
    (hr : t'.r = none ∨ t'.r = t.r) (hlock : t'.lock = t.lock)
    (hlast : t'.lastAttempt = t.lastAttempt) (hattempts : t'.attempts = t.attempts)
    (hclock : t'.clock = t.clock) (hconnected : t'.connected = t.connected) :
    Guar (World.Inv installed backoffSeconds) i t t' ∧ t'.Free installed backoffSeconds i := by
  have hinv : t'.Inv installed backoffSeconds := by
    obtain ⟨hapart, hdated, hpast, hrecorded, husable⟩ := ht.inv
    refine ⟨hattempts ▸ hapart, ?_, ?_, ?_, ?_⟩
    · simpa [hattempts, hlast] using hdated
    · simpa [hlast, hclock] using hpast
    · simpa [World.Recorded, hlock, hlast, hattempts] using hrecorded
    · intro c hc
      obtain hr | hr := hr
      · exact absurd (hr.symm.trans hc) nofun
      · rw [hconnected]
        exact husable c (hr.symm.trans hc)
  exact ⟨guar_of (fun _ => hinv) hclock (fun _ _ => by rw [hlock]) (.inr ⟨hlast, hattempts⟩)
    (hconnected ▸ fun _ hc => hc), hinv, by rw [hlock]; exact ht.lock⟩

/-- A request that fails is caught. -/
theorem safe_asked {client : Client} {request : Request} {fallback : request.Reply}
    (h : s.Free installed backoffSeconds i) :
    Safely installed backoffSeconds i
      (fun o t => o ≠ .error .redisError ∧ t.Free installed backoffSeconds i)
      (asked client request fallback) s := by
  have hsend : Safely installed backoffSeconds i
      (fun _ t => t.Free installed backoffSeconds i)
      (Prog.perform (Cmd.send client request)) s := by
    refine Prog.safe_perform ?_
    rintro t hr v _ ⟨-, rfl⟩
    obtain ⟨hguar, hfree⟩ := free_step { t with sent := t.sent ++ [(client, request)] }
      (stable_free s t hr h) (.inr rfl) rfl rfl rfl rfl rfl
    exact ⟨hguar, fun t'' hr' => stable_free _ _ hr' hfree⟩
  refine hsend.catch (Rely.refl i) (fun e t ht => ?_) fun a t ht => ⟨nofun, ht⟩
  split
  · have hdrop : Safely installed backoffSeconds i
        (fun o t => o = .ok () ∧ t.Free installed backoffSeconds i) invalidate t := by
      refine Prog.safe_perform ?_
      rintro t' hr _ _ ⟨rfl, rfl⟩
      obtain ⟨hguar, hfree⟩ := free_step { t' with r := none } (stable_free t t' hr ht)
        (.inl rfl) rfl rfl rfl rfl rfl
      exact ⟨hguar, fun t'' hr' => ⟨rfl, stable_free _ _ hr' hfree⟩⟩
    refine hdrop.bind (Rely.refl i) ?_ (by simp)
    rintro ⟨⟩ t ⟨-, ht⟩
    exact fun t' hr => ⟨nofun, stable_free t t' hr ht⟩
  · rename_i he
    exact fun t' hr => ⟨fun h => he (by simpa using h), stable_free t t' hr ht⟩

/-- **An operation beside others** raises no `RedisError` and leaves the lock alone. -/
theorem safe_program (op : Op) (h : s.Free installed backoffSeconds i) :
    Safely installed backoffSeconds i
      (fun o t => o ≠ .error .redisError ∧ t.Free installed backoffSeconds i)
      (program installed backoffSeconds op) s := by
  have hraise : ∀ {α : Type} (e : Exc) (t : World ι),
      (.error e : Except Exc α) ≠ .error .redisError ∧ t.Free installed backoffSeconds i →
      (.error e : Except Exc Answer) ≠ .error .redisError ∧ t.Free installed backoffSeconds i :=
    fun e t ht => ⟨fun he => ht.1 (by simpa using he), ht.2⟩
  cases op with
  | get key =>
    refine (safe_getClient h).bind (Rely.refl i) ?_ hraise
    rintro (_ | client) t ⟨-, ht⟩
    · exact fun t' hr => ⟨nofun, stable_free t t' hr ht⟩
    · refine (safe_asked ht).bind (Rely.refl i) ?_ hraise
      rintro raw t ⟨-, ht⟩
      refine Prog.safe_ofOutcome.mpr fun t' hr => ⟨?_, stable_free t t' hr ht⟩
      cases Cache.parsed raw <;> exact nofun
  | set key value ttl =>
    refine (safe_getClient h).bind (Rely.refl i) ?_ hraise
    rintro (_ | client) t ⟨-, ht⟩
    · exact fun t' hr => ⟨nofun, stable_free t t' hr ht⟩
    · refine (safe_asked ht).bind (Rely.refl i) ?_ hraise
      rintro ⟨⟩ t ⟨-, ht⟩
      exact fun t' hr => ⟨nofun, stable_free t t' hr ht⟩
  | enabled =>
    refine (safe_getClient h).bind (Rely.refl i) ?_ hraise
    rintro client t ⟨-, ht⟩
    exact fun t' hr => ⟨nofun, stable_free t t' hr ht⟩

/-! ## A run -/

/-- Time and the network break no invariant. -/
theorem moves_outside {s s' : World ι} (h : outside s s') :
    (s.Inv installed backoffSeconds → s'.Inv installed backoffSeconds) ∧
      ∀ i, Rely (World.Inv installed backoffSeconds) i s s' := by
  obtain ⟨clock, reachable, hle, rfl⟩ := h
  have hkeep : s.Inv installed backoffSeconds →
      World.Inv installed backoffSeconds { s with clock := clock, reachable := reachable } :=
    fun h => ⟨h.apart, h.dated, fun l hl => (h.past l hl).trans hle, h.recorded, h.usable⟩
  exact ⟨hkeep, fun i => ⟨hkeep, hle, Iff.rfl, fun _ => ⟨rfl, rfl⟩, fun _ hc => hc⟩⟩

/-- At first there are no attempts. -/
theorem inv_new (clock : Time) :
    (World.new clock : World ι).Inv installed backoffSeconds :=
  ⟨.nil, nofun, nofun, fun _ _ => nofun, nofun⟩

/-- Every idle thread is outside the block under the lock, and every call is on its way to the end
of its operation. -/
def System.Inv (installed : Bool) (backoffSeconds : Time) (w : System ι) : Prop :=
  w.Within does (World.Inv installed backoffSeconds) (Rely (World.Inv installed backoffSeconds))
    (Guar (World.Inv installed backoffSeconds)) (fun i s => s.lock ≠ some i)
    fun i _ o s => o ≠ .error .redisError ∧ s.Free installed backoffSeconds i

theorem System.inv_start (clock : Time) :
    (System.start clock : System ι).Inv installed backoffSeconds :=
  ⟨inv_new clock, fun _ => nofun⟩

/-- One step keeps the invariant, and ends no call in a `RedisError`. -/
theorem System.Inv.step [DecidableEq ι] {w w' : System ι} {l : System.Label ι}
    (h : w.Inv installed backoffSeconds) (hst : System.step installed backoffSeconds w l w') :
    (∀ i op, l ≠ .finish i op (.error .redisError)) ∧ w'.Inv installed backoffSeconds := by
  obtain ⟨hnext, hends⟩ := Threads.Within.step h hst Rely.refl Rely.trans
    (fun i j a b hne hg => hg.others j hne.symm) (fun i a b hg => hg.keeps)
    (fun a b => moves_outside) (fun i a b hr hl h => hl (hr.lock.mp h))
    (fun i op s hinv hl => safe_program op ⟨hinv, hl⟩) (fun i op o s h => h.2.lock)
  exact ⟨fun i op hl => (hends i op _ hl).1 rfl, hnext⟩

/-- Every run of every number of threads. -/
theorem System.Inv.run [DecidableEq ι] {clock : Time} {w : System ι}
    {ts : List (System ι × System.Label ι × System ι)}
    (hrun : Run (System.step installed backoffSeconds) (.start clock) ts w) :
    (∀ t ∈ ts, ∀ i op, t.2.1 ≠ .finish i op (.error .redisError)) ∧
      w.Inv installed backoffSeconds :=
  hrun.each (P := fun _ l _ => ∀ i op, l ≠ .finish i op (.error .redisError))
    (System.inv_start clock) fun _ _ _ h hst => h.step hst

/-! ## An operation alone -/

/-- While one thread is alone, only time passes between its commands. -/
def Solo (s s' : World ι) : Prop := ∃ clock, s.clock ≤ clock ∧ s' = { s with clock := clock }

theorem Solo.refl (s : World ι) : Solo s s := ⟨s.clock, le_refl _, rfl⟩

theorem Solo.trans (a b c : World ι) (h : Solo a b) (h' : Solo b c) : Solo a c := by
  obtain ⟨clock, hle, rfl⟩ := h
  obtain ⟨clock', hle', rfl⟩ := h'
  exact ⟨clock', hle.trans hle', rfl⟩

abbrev Alone {α : Type} (i : ι) (post : Except Exc α → World ι → Prop) (p : Call α)
    (s : World ι) : Prop :=
  p.Completes (does i) Solo post s

/-- What a client is looked for with: Redis answers, and nothing more has been sent. -/
structure Kept (s t : World ι) : Prop where
  reachable : t.reachable = s.reachable
  sent : t.sent = s.sent
  lock : t.lock = s.lock

theorem Solo.kept {s t : World ι} (h : Solo s t) : Kept s t := by
  obtain ⟨_, -, rfl⟩ := h
  exact ⟨rfl, rfl, rfl⟩

theorem Kept.trans {s t u : World ι} (h : Kept s t) (h' : Kept t u) : Kept s u :=
  ⟨h'.reachable.trans h.reachable, h'.sent.trans h.sent, h'.lock.trans h.lock⟩

/-- A command that neither sends nor moves the lock. -/
theorem Kept.step {s t t' u : World ι} (h : Kept s t) (hu : Solo t' u)
    (hreachable : t'.reachable = t.reachable) (hsent : t'.sent = t.sent)
    (hlock : t'.lock = t.lock) : Kept s u :=
  h.trans (Kept.trans ⟨hreachable, hsent, hlock⟩ hu.kept)

/-- Alone, a thread reads what is there. -/
theorem alone_readR {s : World ι} : Alone i (fun o t => o = .ok s.r ∧ Solo s t) readR s := by
  refine Prog.completes_perform fun t ht => ⟨⟨_, _, rfl, rfl⟩, ?_⟩
  rintro _ _ ⟨rfl, rfl⟩ t'' ht''
  refine ⟨?_, ht.trans _ _ _ ht''⟩
  obtain ⟨_, -, rfl⟩ := ht
  rfl

theorem alone_hasClient {s : World ι} :
    Alone i (fun o t => o = .ok s.r.isSome ∧ Solo s t) hasClient s := by
  refine alone_readR.bind Solo.refl ?_ (by simp)
  rintro r t ⟨⟨⟩, ht⟩ t' ht'
  exact ⟨rfl, ht.trans _ _ _ ht'⟩

theorem alone_monotonic {s : World ι} :
    Alone i (fun o t => (∃ now, o = .ok now ∧ s.clock ≤ now) ∧ Solo s t) monotonic s := by
  refine Prog.completes_perform fun t ht => ⟨⟨_, _, rfl, rfl⟩, ?_⟩
  rintro _ _ ⟨rfl, rfl⟩ t'' ht''
  refine ⟨⟨_, rfl, ?_⟩, ht.trans _ _ _ ht''⟩
  obtain ⟨_, hle, rfl⟩ := ht
  exact hle

theorem alone_readLastAttempt {s : World ι} :
    Alone i (fun o t => o = .ok s.lastAttempt ∧ Solo s t) readLastAttempt s := by
  refine Prog.completes_perform fun t ht => ⟨⟨_, _, rfl, rfl⟩, ?_⟩
  rintro _ _ ⟨rfl, rfl⟩ t'' ht''
  refine ⟨?_, ht.trans _ _ _ ht''⟩
  obtain ⟨_, -, rfl⟩ := ht
  rfl

/-- Once the backoff is over, it stays over. -/
theorem alone_backsOff {s : World ι} {now : Time} (hdue : s.Due backoffSeconds now) :
    Alone i (fun o t => o = .ok false ∧ Solo s t) (backsOff backoffSeconds now) s := by
  refine alone_readLastAttempt.bind Solo.refl ?_ (by simp)
  rintro first t ⟨hfirst, ht⟩
  obtain rfl : first = s.lastAttempt := by simpa using hfirst
  cases hlast : s.lastAttempt with
  | none => exact fun t' ht' => ⟨rfl, ht.trans _ _ _ ht'⟩
  | some l =>
    refine alone_readLastAttempt.bind Solo.refl ?_ (by simp)
    rintro last t' ⟨hread, ht'⟩
    have hsame : t.lastAttempt = some l := by
      obtain ⟨_, -, rfl⟩ := ht
      exact hlast
    obtain rfl : last = some l := by simpa [hsame] using hread
    refine fun t'' ht'' => ⟨?_, (ht.trans _ _ _ ht').trans _ _ _ ht''⟩
    have hge : ¬ now - l < backoffSeconds := by linarith [hdue l hlast]
    simp [hge]

/-- Where Redis is reachable, a connection is made and answered. -/
theorem alone_connect {s : World ι} (hinstalled : installed = true) (hup : s.reachable = true) :
    Alone i (fun o t => (∃ c, o = .ok (some c) ∧ c ∈ t.connected) ∧ Kept s t)
      (connect installed) s := by
  have hnew : Alone i (fun o t => (∃ c, o = .ok c) ∧ Kept s t) (Prog.perform Cmd.fromUrl) s := by
    refine Prog.completes_perform fun t ht => ⟨⟨_, _, .inl rfl, rfl⟩, ?_⟩
    rintro v _ ⟨hv, rfl⟩ t'' ht''
    obtain rfl | ⟨hdown, -⟩ := hv
    · exact ⟨⟨_, rfl⟩, ht.kept.step ht'' rfl rfl rfl⟩
    · simp [ht.kept.reachable, hup] at hdown
  have hping : ∀ (c : Client) (t : World ι), t.reachable = true →
      Alone i (fun o t' => (o = .ok () ∧ c ∈ t'.connected) ∧ Kept t t')
        (Prog.perform (Cmd.ping c)) t := by
    refine fun c t hup => Prog.completes_perform fun t' ht' => ⟨⟨_, _, .inl ⟨rfl, rfl⟩⟩, ?_⟩
    rintro v _ (⟨rfl, rfl⟩ | ⟨hdown, -⟩) t'' ht''
    · refine ⟨⟨rfl, ?_⟩, ht'.kept.step ht'' rfl rfl rfl⟩
      obtain ⟨_, -, rfl⟩ := ht''
      exact List.mem_cons_self
    · simp [ht'.kept.reachable, hup] at hdown
  have hboth : Alone i (fun o t => (∃ c, o = .ok (some c) ∧ c ∈ t.connected) ∧ Kept s t)
      (do
        let client : Client ← Prog.perform Cmd.fromUrl
        Prog.perform (Cmd.ping client)
        return some client) s := by
    refine hnew.bind Solo.refl ?_ (by simp)
    rintro c t ⟨-, ht⟩
    refine (hping c t (ht.reachable.trans hup)).bind Solo.refl ?_ (by simp)
    rintro ⟨⟩ t' ⟨⟨-, hc⟩, ht'⟩ t'' ht''
    refine ⟨⟨c, rfl, ?_⟩, (ht.trans ht').trans ht''.kept⟩
    obtain ⟨_, -, rfl⟩ := ht''
    exact hc
  rw [connect, if_pos hinstalled]
  exact hboth.catch Solo.refl (fun e t h => absurd h.1 (by simp)) fun a t h => h

/-- A client that answers comes out of the attempt, and out of the field it is put in. -/
theorem alone_attempt {s : World ι} {now : Time} (hinstalled : installed = true)
    (hup : s.reachable = true) :
    Alone i (fun o t => (∃ c, o = .ok (some c) ∧ c ∈ t.connected) ∧ Kept s t)
      (attempt installed now) s := by
  have hdate : Alone i (fun o t => o = .ok () ∧ Kept s t)
      (Prog.perform (Cmd.writeLastAttempt now)) s := by
    refine Prog.completes_perform fun t ht => ⟨⟨_, _, rfl, rfl⟩, ?_⟩
    rintro _ _ ⟨rfl, rfl⟩ t'' ht''
    exact ⟨rfl, ht.kept.step ht'' rfl rfl rfl⟩
  have hput : ∀ (c : Client) (t : World ι), c ∈ t.connected →
      Alone i (fun o t' => o = .ok () ∧ t'.r = some c ∧ c ∈ t'.connected ∧ Kept t t')
        (Prog.perform (Cmd.writeR (some c))) t := by
    refine fun c t hc => Prog.completes_perform fun t' ht' => ⟨⟨_, _, rfl, rfl⟩, ?_⟩
    rintro _ _ ⟨rfl, rfl⟩ t'' ht''
    have hkept := ht'.kept.step ht'' rfl rfl rfl
    obtain ⟨_, -, rfl⟩ := ht'
    obtain ⟨_, -, rfl⟩ := ht''
    exact ⟨rfl, rfl, hc, hkept⟩
  refine hdate.bind Solo.refl ?_ (by simp)
  rintro ⟨⟩ t ⟨-, ht⟩
  refine (alone_connect hinstalled (ht.reachable.trans hup)).bind Solo.refl ?_ (by simp)
  rintro r t' ⟨⟨c, hr, hc⟩, ht'⟩
  obtain rfl : r = some c := by simpa using hr
  refine (hput c t' hc).bind Solo.refl ?_ (by simp)
  rintro ⟨⟩ u ⟨-, hr, hc, hu⟩
  refine alone_readR.weaken ?_
  rintro _ v ⟨rfl, hv⟩
  refine ⟨⟨c, by rw [hr], ?_⟩, ((ht.trans ht').trans hu).trans hv.kept⟩
  obtain ⟨_, -, rfl⟩ := hv
  exact hc

/-- What an operation that begins alone finds. -/
structure World.Ready (backoffSeconds : Time) (s : World ι) : Prop where
  reachable : s.reachable = true
  lock : s.lock = none
  usable : ∀ c, s.r = some c → c ∈ s.connected
  due : ∀ l, s.lastAttempt = some l → l + backoffSeconds ≤ s.clock

/-- What is due stays due. -/
theorem World.due_of_le {s : World ι} {now now' : Time} (h : s.Due backoffSeconds now)
    (hle : now ≤ now') : s.Due backoffSeconds now' :=
  fun l hl => (h l hl).trans hle

theorem Solo.due {s t : World ι} {now : Time} (h : Solo s t) (hdue : s.Due backoffSeconds now) :
    t.Due backoffSeconds now := by
  obtain ⟨_, -, rfl⟩ := h
  exact hdue

theorem Solo.clock {s t : World ι} (h : Solo s t) : s.clock ≤ t.clock := by
  obtain ⟨_, hle, rfl⟩ := h
  exact hle

theorem Solo.r {s t : World ι} (h : Solo s t) : t.r = s.r := by
  obtain ⟨_, -, rfl⟩ := h
  rfl

/-- Without a client and after the backoff, the block under the lock brings one. -/
theorem alone_reconnect {s : World ι} (hinstalled : installed = true) (hup : s.reachable = true)
    (hnone : s.r = none) (hdue : s.Due backoffSeconds s.clock) :
    Alone i (fun o t => (∃ c, o = .ok (some c) ∧ c ∈ t.connected) ∧ Kept s t)
      (reconnect installed backoffSeconds) s := by
  refine alone_hasClient.bind Solo.refl ?_ (by simp)
  rintro ready t ⟨hready, ht⟩
  obtain rfl : ready = false := by simpa [hnone] using hready
  refine alone_monotonic.bind Solo.refl ?_ (by simp)
  rintro now t' ⟨⟨_, ⟨⟩, hnow⟩, ht'⟩
  have hlate := World.due_of_le ((ht.trans _ _ _ ht').due hdue) (ht.clock.trans hnow)
  refine (alone_backsOff hlate).bind Solo.refl ?_ (by simp)
  rintro early u ⟨⟨⟩, hu⟩
  have hkept := ((ht.trans _ _ _ ht').trans _ _ _ hu).kept
  refine (alone_attempt hinstalled (hkept.reachable.trans hup)).weaken ?_
  exact fun o v ⟨hc, hv⟩ => ⟨hc, hkept.trans hv⟩

/-- The lock is free for whoever is alone. -/
theorem alone_withLock {α : Type} {body : Call α} {s : World ι}
    {Q : Except Exc α → List Client → Prop} (hlock : s.lock = none)
    (hbody : ∀ t : World ι, t.r = s.r → t.lastAttempt = s.lastAttempt → s.clock ≤ t.clock →
      t.reachable = s.reachable → Alone i (fun o u => Q o u.connected ∧ Kept t u) body t) :
    Alone i (fun o t => Q o t.connected ∧ t.reachable = s.reachable ∧ t.sent = s.sent)
      (withLock body) s := by
  have hacquire : Alone i (fun o t => o = .ok () ∧ t.r = s.r ∧ t.lastAttempt = s.lastAttempt ∧
      s.clock ≤ t.clock ∧ t.reachable = s.reachable ∧ t.sent = s.sent)
      (Prog.perform Cmd.acquire) s := by
    refine Prog.completes_perform fun t ht => ?_
    obtain ⟨clock, hle, rfl⟩ := ht
    refine ⟨⟨_, _, hlock, rfl, rfl⟩, ?_⟩
    rintro _ _ ⟨-, rfl, rfl⟩ t'' ht''
    obtain ⟨clock', hle', rfl⟩ := ht''
    exact ⟨rfl, rfl, rfl, hle.trans hle', rfl, rfl⟩
  have hrelease : ∀ t : World ι, Alone i (fun o u => o = .ok () ∧ u.connected = t.connected ∧
      u.reachable = t.reachable ∧ u.sent = t.sent) (Prog.perform Cmd.release) t := by
    refine fun t => Prog.completes_perform fun t' ht' => ⟨⟨_, _, rfl, rfl⟩, ?_⟩
    rintro _ _ ⟨rfl, rfl⟩ t'' ht''
    obtain ⟨_, -, rfl⟩ := ht'
    obtain ⟨_, -, rfl⟩ := ht''
    exact ⟨rfl, rfl, rfl, rfl⟩
  refine hacquire.bind Solo.refl ?_ (by simp)
  rintro ⟨⟩ t ⟨-, hr, hlast, hclock, hup, hsent⟩
  refine (hbody t hr hlast hclock hup).andThen Solo.refl ?_
  rintro o u ⟨hq, hkept⟩
  refine (hrelease u).bind Solo.refl ?_ (by simp)
  rintro ⟨⟩ v ⟨-, hc, hv, hvs⟩
  refine Prog.completes_ofOutcome.mpr fun v' hv' => ?_
  obtain ⟨_, -, rfl⟩ := hv'
  exact ⟨hc ▸ hq, (hv.trans hkept.reachable).trans hup, (hvs.trans hkept.sent).trans hsent⟩

/-- **Alone, after the backoff, with Redis there**, `_get_client` returns a client that has
answered. -/
theorem alone_getClient {s : World ι} (hinstalled : installed = true)
    (h : s.Ready backoffSeconds) :
    Alone i (fun o t => (∃ c, o = .ok (some c) ∧ c ∈ t.connected) ∧
      t.reachable = s.reachable ∧ t.sent = s.sent) (getClient installed backoffSeconds) s := by
  refine alone_hasClient.bind Solo.refl ?_ (by simp)
  rintro ready t ⟨hready, ht⟩
  obtain rfl : ready = s.r.isSome := by simpa using hready
  cases hr : s.r with
  | some c =>
    refine alone_readR.weaken ?_
    rintro _ u ⟨rfl, hu⟩
    have hkept := ht.kept.trans hu.kept
    refine ⟨⟨c, by rw [ht.r, hr], ?_⟩, hkept.reachable, hkept.sent⟩
    obtain ⟨_, -, rfl⟩ := ht.trans _ _ _ hu
    exact h.usable c hr
  | none =>
    refine alone_monotonic.bind Solo.refl ?_ (by simp)
    rintro now t' ⟨⟨_, ⟨⟩, hnow⟩, ht'⟩
    have hdue : s.Due backoffSeconds s.clock := h.due
    have hall := ht.trans _ _ _ ht'
    refine (alone_backsOff (World.due_of_le (hall.due hdue) (ht.clock.trans hnow))).bind
      Solo.refl ?_ (by simp)
    rintro early u ⟨⟨⟩, hu⟩
    have hall := hall.trans _ _ _ hu
    have hlock : u.lock = none := hall.kept.lock.trans h.lock
    refine (alone_withLock (Q := fun o cs => ∃ c, o = .ok (some c) ∧ c ∈ cs) hlock ?_).weaken
      fun o v hv => ⟨hv.1, hv.2.1.trans hall.kept.reachable, hv.2.2.trans hall.kept.sent⟩
    intro v hvr hvlast hvclock hvup
    refine alone_reconnect hinstalled ((hvup.trans hall.kept.reachable).trans h.reachable)
      ((hvr.trans hall.r).trans hr) fun l hl => ?_
    have hstart : l + backoffSeconds ≤ s.clock :=
      (hall.due hdue) l (hvlast ▸ hl)
    exact hstart.trans (hall.clock.trans hvclock)

/-- The operation has come to a client that had answered a `ping`: it has been sent the request, or
`enabled` has said so. -/
def Op.Uses (op : Op) (s t : World ι) (o : Except Exc Answer) : Prop :=
  match op with
  | .get key => ∃ c ∈ t.connected, t.sent = s.sent ++ [(c, .get key)]
  | .set key value ttl => ∃ c ∈ t.connected, t.sent = s.sent ++ [(c, .set key (dumps value) ttl)]
  | .enabled => o = .ok (.flag true)

/-- And a request on a connected client is sent. -/
theorem alone_asked {s : World ι} {client : Client} {request : Request} {fallback : request.Reply}
    (hup : s.reachable = true) (hc : client ∈ s.connected) :
    Alone i (fun _ t => client ∈ t.connected ∧ t.sent = s.sent ++ [(client, request)])
      (asked client request fallback) s := by
  have hsend : Alone i (fun o t => o ≠ .error .redisError ∧ client ∈ t.connected ∧
      t.sent = s.sent ++ [(client, request)]) (Prog.perform (Cmd.send client request)) s := by
    refine Prog.completes_perform fun t ht => ⟨⟨.ok fallback, _, fun _ => nofun, rfl⟩, ?_⟩
    rintro v _ ⟨hv, rfl⟩ t'' ht''
    obtain ⟨_, -, rfl⟩ := ht
    obtain ⟨_, -, rfl⟩ := ht''
    exact ⟨hv hup, hc, rfl⟩
  refine hsend.catch Solo.refl (fun e t ht => ?_) fun a t ht => ht.2
  have he : e ≠ .redisError := fun he => ht.1 (by rw [he])
  simp only [if_neg he]
  intro t' ht'
  obtain ⟨_, -, rfl⟩ := ht'
  exact ht.2

/-- **An operation alone.** -/
theorem alone_program {s : World ι} (op : Op) (hinstalled : installed = true)
    (h : s.Ready backoffSeconds) :
    Alone i (fun o t => op.Uses s t o) (program installed backoffSeconds op) s := by
  have hclient := alone_getClient (i := i) hinstalled h
  cases op with
  | get key =>
    refine hclient.bind Solo.refl ?_ (by simp)
    rintro client t ⟨⟨c, hclient, hc⟩, hup, hsent⟩
    obtain rfl : client = some c := by simpa using hclient
    refine (alone_asked (hup.trans h.reachable) hc).bind Solo.refl ?_ (fun _ _ ht => ?_)
    · intro raw t' ht
      refine Prog.completes_ofOutcome.mpr fun u hu => ?_
      obtain ⟨_, -, rfl⟩ := hu
      exact ⟨c, ht.1, hsent ▸ ht.2⟩
    · exact ⟨c, ht.1, hsent ▸ ht.2⟩
  | set key value ttl =>
    refine hclient.bind Solo.refl ?_ (by simp)
    rintro client t ⟨⟨c, hclient, hc⟩, hup, hsent⟩
    obtain rfl : client = some c := by simpa using hclient
    refine (alone_asked (hup.trans h.reachable) hc).bind Solo.refl ?_ (fun _ _ ht => ?_)
    · rintro ⟨⟩ t' ht u hu
      obtain ⟨_, -, rfl⟩ := hu
      exact ⟨c, ht.1, hsent ▸ ht.2⟩
    · exact ⟨c, ht.1, hsent ▸ ht.2⟩
  | enabled =>
    refine hclient.bind Solo.refl ?_ (by simp)
    rintro client t ⟨⟨c, hclient, hc⟩, -⟩
    obtain rfl : client = some c := by simpa using hclient
    exact fun t' ht' => rfl

/-! ## How long an operation takes -/

theorem atMost_hasClient : hasClient.AtMost 1 :=
  Prog.AtMost.bind (n := 0) Prog.atMost_perform fun _ => trivial

theorem atMost_connect : (connect installed).AtMost 2 := by
  unfold connect
  split
  · refine Prog.AtMost.catch (m := 2) (n := 0) ?_ fun _ => trivial
    refine Prog.AtMost.bind (m := 1) (n := 1) Prog.atMost_perform fun _ => ?_
    exact Prog.AtMost.bind (n := 0) Prog.atMost_perform fun _ => trivial
  · trivial

theorem atMost_backsOff {now : Time} : (backsOff backoffSeconds now).AtMost 2 := by
  refine Prog.AtMost.bind (m := 1) (n := 1) Prog.atMost_perform fun first => ?_
  cases first with
  | none => trivial
  | some _ =>
    refine Prog.AtMost.bind (n := 0) Prog.atMost_perform fun last => ?_
    cases last <;> trivial

theorem atMost_attempt {now : Time} : (attempt installed now).AtMost 5 := by
  refine Prog.AtMost.bind (m := 1) (n := 4) Prog.atMost_perform fun _ => ?_
  refine atMost_connect.bind (n := 2) fun _ => ?_
  exact Prog.AtMost.bind (n := 1) Prog.atMost_perform fun _ => Prog.atMost_perform

/-- What `_get_client` and the block under its lock do first: with a client, no more than to read it
once more. -/
theorem atMost_unlessEarly {rest : Time → Call (Option Client)} {n : Nat}
    (hrest : ∀ now, (rest now).AtMost n) :
    (do
      let ready ← hasClient
      if ready then readR else do
      let now ← monotonic
      let early ← backsOff backoffSeconds now
      if early then return none else rest now : Call (Option Client)).AtMost (4 + n) := by
  rw [Nat.add_assoc 1 3 n]
  refine atMost_hasClient.bind fun ready => ?_
  cases ready with
  | true => exact Prog.atMost_perform.mono (by omega)
  | false =>
    rw [Nat.add_assoc 1 2 n]
    refine Prog.atMost_perform.bind fun now => atMost_backsOff.bind fun early => ?_
    cases early with
    | true => trivial
    | false => exact hrest now

theorem atMost_withLock {α : Type} {body : Call α} {n : Nat} (h : body.AtMost n) :
    (withLock body).AtMost (1 + (n + 1)) := by
  refine Prog.atMost_perform.bind fun _ => h.andThen fun o => ?_
  exact Prog.AtMost.bind (n := 0) Prog.atMost_perform fun _ => Prog.atMost_ofOutcome

/-- The longest way through `_get_client`: the lock, a second look, the clocks, an attempt, the lock
again. -/
theorem atMost_getClient : (getClient installed backoffSeconds).AtMost 15 :=
  atMost_unlessEarly (n := 11) fun _ =>
    atMost_withLock (n := 9) (atMost_unlessEarly (n := 5) fun _ => atMost_attempt)

theorem atMost_asked {client : Client} {request : Request} {fallback : request.Reply} :
    (asked client request fallback).AtMost 2 := by
  refine Prog.AtMost.catch (m := 1) (n := 1) Prog.atMost_perform fun e => ?_
  split
  · exact Prog.AtMost.bind (n := 0) Prog.atMost_perform fun _ => trivial
  · trivial

/-- Looking for a client takes at most fifteen commands, asking it two. -/
theorem atMost_program (op : Op) : (program installed backoffSeconds op).AtMost 17 := by
  cases op with
  | get key =>
    refine atMost_getClient.bind (n := 2) fun client => ?_
    cases client with
    | none => trivial
    | some client => exact atMost_asked.bind (n := 0) fun _ => Prog.atMost_ofOutcome
  | set key value ttl =>
    refine atMost_getClient.bind (n := 2) fun client => ?_
    cases client with
    | none => trivial
    | some client => exact atMost_asked.bind (n := 0) fun _ => trivial
  | enabled => exact atMost_getClient.bind (n := 2) fun _ => trivial

/-! ## The connection -/

/-- Nothing but the call of `i` moves in the run, and Redis is reachable from its beginning to its
end. -/
def System.Undisturbed (i : ι) (us : List (System ι × System.Label ι × System ι)) : Prop :=
  ∀ t ∈ us, t.2.1.GoesOn i ∧ t.1.world.reachable = true ∧ t.2.2.world.reachable = true

/-- While Redis stays reachable, only time passes. -/
theorem solo_of_outside {s t : World ι} (h : outside s t) (hs : s.reachable = true)
    (ht : t.reachable = true) : Solo s t := by
  obtain ⟨clock, reachable, hle, rfl⟩ := h
  obtain rfl : reachable = true := ht
  exact ⟨clock, hle, by rw [← hs]⟩

/-- **The cache's connection.** However the threads come between each other and whichever requests
fail, no call ends in a `RedisError`; the readings under which attempts are begun are the backoff
apart; and a call that runs alone while Redis is reachable, once the backoff has passed since every
attempt, goes through: its thread has taken at most eighteen steps, its next ones bring the call to
its end from wherever it stands, and it ends having used a client that answered. -/
theorem cache_connections [DecidableEq ι] {clock : Time} {w : System ι}
    {ts : List (System ι × System.Label ι × System ι)}
    (hrun : Run (System.step installed backoffSeconds) (.start clock) ts w) :
    (∀ t ∈ ts, ∀ i op, t.2.1 ≠ .finish i op (.error .redisError)) ∧
    w.world.attempts.Pairwise (Apart backoffSeconds) ∧
    (∀ a ∈ w.world.attempts, ∃ x, a.reading = some x ∧ x ≤ a.begun) ∧
    ∀ i op us w', installed = true → (∀ j, w.calls j = none) → w.world.reachable = true →
      (∀ a ∈ w.world.attempts, ∀ x, a.reading = some x → x + backoffSeconds ≤ w.world.clock) →
      Run (System.step installed backoffSeconds)
        (w.put i op (program installed backoffSeconds op)) us w' → System.Undisturbed i us →
      (∀ t ∈ us, ∀ op' o, t.2.1 = .finish i op' o → op.Uses w.world t.1.world o) ∧
      us.countP (fun t => t.2.1.own i) ≤ 18 ∧
      ∃ vs w'', Run (System.step installed backoffSeconds) w' vs w'' ∧
        (∀ t ∈ vs, t.2.1.own i) ∧ w''.calls i = none ∧
        Threads.Ends (fun o s => op.Uses w.world s o) i op (us ++ vs) := by
  obtain ⟨hfine, hinv, hidle⟩ := System.Inv.run hrun
  refine ⟨hfine, hinv.apart, fun a ha => ?_, ?_⟩
  · obtain ⟨x, _, hx, -, hle, -⟩ := hinv.dated a ha
    exact ⟨x, hx, hle⟩
  intro i op us w' hinstalled hnone hup hlate hus halone
  -- nobody is in an operation, so the lock is free
  have hlock : w.world.lock = none := by
    cases hl : w.world.lock with
    | none => rfl
    | some j =>
      have hj := hidle j
      rw [hnone j] at hj
      exact absurd hl hj
  have hready : w.world.Ready backoffSeconds := by
    refine ⟨hup, hlock, hinv.usable, fun l hl => ?_⟩
    -- `_last_attempt` is the reading of an attempt, and the backoff is over since
    obtain ⟨a, ha, hal⟩ := hinv.recorded hlock hinstalled l hl
    exact hlate a ha l hal
  have hquiet : ∀ t ∈ us, t.2.1.GoesOn i ∧
      (t.2.1 = .outside → Solo t.1.world t.2.2.world) := by
    intro t ht
    obtain ⟨hgo, hbefore, hafter⟩ := halone t ht
    refine ⟨hgo, fun hl => ?_⟩
    have hst := hus.steps t ht
    obtain ⟨a, l, b⟩ := t
    dsimp only at hl hst hbefore hafter ⊢
    subst hl
    cases hst with
    | outside hmoves => exact solo_of_outside hmoves hbefore hafter
  obtain ⟨hends, hgoesOn⟩ := Threads.alone hus hquiet Solo.refl Solo.trans
    (alone_program op hinstalled hready)
  exact ⟨hends, Threads.own_le hus (fun t ht => (hquiet t ht).1) (atMost_program op), hgoesOn⟩

end

/-! ## Late attempts -/

/-- What one thread can do while the others stand still and the clock goes on. -/
abbrev steps : Call Answer → World Unit → Call Answer → World Unit → Prop :=
  Prog.Steps fun s c v s' => ∃ t, outside s t ∧ does () t c v s'

theorem outside_refl (s : World ι) : outside s s := ⟨s.clock, s.reachable, le_refl _, rfl⟩

/-- After a failed attempt at 0 whose `from_url` came late. -/
def heldUp : World Unit where
  r := none
  lastAttempt := some 0
  lock := none
  clock := 19/10
  reachable := false
  clients := 1
  connected := []
  attempts := [⟨some 0, 19/10⟩]
  sent := []

/-- An attempt that is held up between its reading and `from_url`. -/
theorem steps_heldUp :
    steps (program true 2 .enabled) (World.new 0) (.ofOutcome (.ok (.flag false))) heldUp := by
  refine .cmd (v := .ok none) ⟨_, outside_refl _, rfl, rfl⟩ ?_
  refine .cmd (v := .ok 0) ⟨_, outside_refl _, rfl, rfl⟩ ?_
  refine .cmd (v := .ok none) ⟨_, outside_refl _, rfl, rfl⟩ ?_
  refine .cmd (v := .ok ()) ⟨_, outside_refl _, rfl, rfl, rfl⟩ ?_
  refine .cmd (v := .ok none) ⟨_, outside_refl _, rfl, rfl⟩ ?_
  refine .cmd (v := .ok 0) ⟨_, outside_refl _, rfl, rfl⟩ ?_
  refine .cmd (v := .ok none) ⟨_, outside_refl _, rfl, rfl⟩ ?_
  refine .cmd (v := .ok ()) ⟨_, outside_refl _, rfl, rfl⟩ ?_
  -- the thread is held up here
  refine .cmd (v := .ok 0) ⟨_, ⟨19/10, false, by norm_num [World.new], rfl⟩, .inl rfl, rfl⟩ ?_
  refine .cmd (v := .error .redisError) ⟨_, outside_refl _, .inr ⟨rfl, rfl, rfl⟩⟩ ?_
  refine .cmd (v := .ok ()) ⟨_, outside_refl _, rfl, rfl⟩ ?_
  refine .cmd (v := .ok none) ⟨_, outside_refl _, rfl, rfl⟩ ?_
  refine .cmd (v := .ok ()) ⟨_, outside_refl _, rfl, rfl⟩ ?_
  exact .refl

/-- The next attempt, two seconds after the first one's reading. -/
theorem steps_soonAfter :
    steps (program true 2 .enabled) heldUp (.ofOutcome (.ok (.flag false)))
      { heldUp with
        lastAttempt := some 2
        clock := 2
        clients := 2
        attempts := [⟨some 0, 19/10⟩, ⟨some 2, 2⟩] } := by
  have hover : decide ((2 : Time) - 0 < 2) = false := by norm_num
  refine .cmd (v := .ok none) ⟨_, ⟨2, false, by norm_num [heldUp], rfl⟩, rfl, rfl⟩ ?_
  refine .cmd (v := .ok 2) ⟨_, outside_refl _, rfl, rfl⟩ ?_
  refine .cmd (v := .ok (some 0)) ⟨_, outside_refl _, rfl, rfl⟩ ?_
  refine .cmd (v := .ok (some 0)) ⟨_, outside_refl _, rfl, rfl⟩ ?_
  change Prog.Steps _ (Prog.bind (if decide ((2 : Time) - 0 < 2) = true then _ else _) _) _ _ _
  rw [hover]
  refine .cmd (v := .ok ()) ⟨_, outside_refl _, rfl, rfl, rfl⟩ ?_
  refine .cmd (v := .ok none) ⟨_, outside_refl _, rfl, rfl⟩ ?_
  refine .cmd (v := .ok 2) ⟨_, outside_refl _, rfl, rfl⟩ ?_
  refine .cmd (v := .ok (some 0)) ⟨_, outside_refl _, rfl, rfl⟩ ?_
  refine .cmd (v := .ok (some 0)) ⟨_, outside_refl _, rfl, rfl⟩ ?_
  change Prog.Steps _ (Prog.bind (Prog.andThen
    (if decide ((2 : Time) - 0 < 2) = true then _ else _) _) _) _ _ _
  rw [hover]
  refine .cmd (v := .ok ()) ⟨_, outside_refl _, rfl, rfl⟩ ?_
  refine .cmd (v := .ok 1) ⟨_, outside_refl _, .inl rfl, rfl⟩ ?_
  refine .cmd (v := .error .redisError) ⟨_, outside_refl _, .inr ⟨rfl, rfl, rfl⟩⟩ ?_
  refine .cmd (v := .ok ()) ⟨_, outside_refl _, rfl, rfl⟩ ?_
  refine .cmd (v := .ok none) ⟨_, outside_refl _, rfl, rfl⟩ ?_
  refine .cmd (v := .ok ()) ⟨_, outside_refl _, rfl, rfl⟩ ?_
  exact .refl

/-- Then the next attempt comes sooner after it than the backoff. -/
theorem run_heldUp : ∃ ts w, Run (System.step true 2) (.start 0 : System Unit) ts w ∧
    w.world.attempts = [⟨some 0, 19/10⟩, ⟨some 2, 2⟩] ∧ (∀ j, w.calls j = none) ∧
    w.world.clock = 2 := by
  have hfirst : ∃ us, Run (System.step true 2) (.start 0 : System Unit) us
      ⟨heldUp, fun _ => none⟩ := Threads.run_call rfl steps_heldUp
  obtain ⟨us, hus⟩ := hfirst
  have hsecond : ∃ vs, Run (System.step true 2) ⟨heldUp, fun _ => none⟩ vs ⟨_, fun _ => none⟩ :=
    Threads.run_call rfl steps_soonAfter
  obtain ⟨vs, hvs⟩ := hsecond
  exact ⟨_, _, hus.append hvs, rfl, fun _ => rfl, rfl⟩

/-- Redis is there when the backoff after both attempts is over. -/
theorem run_recovered : ∃ ts w, Run (System.step true 2) (.start 0 : System Unit) ts w ∧
    w.world.attempts = [⟨some 0, 19/10⟩, ⟨some 2, 2⟩] ∧ (∀ j, w.calls j = none) ∧
    w.world.reachable = true ∧ w.world.clock = 4 := by
  obtain ⟨us, w, hrun, hattempts, hidle, hclock⟩ := run_heldUp
  have hlater : outside w.world { w.world with clock := 4, reachable := true } :=
    ⟨4, true, by norm_num [hclock], rfl⟩
  exact ⟨_, _, hrun.tail (.outside hlater), hattempts, hidle, rfl, rfl⟩

/-- Two attempts, a tenth of a second apart, that keep the backoff by their readings; after them an
operation that runs alone comes to its end with a client. -/
theorem cache_connections_held_up :
    ∃ ts w, Run (System.step true 2) (.start 0 : System Unit) ts w ∧
      w.world.attempts.length = 2 ∧ w.world.attempts.Pairwise (Apart 2) ∧
      ∃ vs w'', Run (System.step true 2) (w.put () .enabled (program true 2 .enabled)) vs w'' ∧
        Threads.Ends (fun o _ => o = .ok (.flag true)) () .enabled vs := by
  obtain ⟨ts, w, hrun, hattempts, hidle, hup, hclock⟩ := run_recovered
  obtain ⟨-, hapart, -, halone⟩ := cache_connections hrun
  have hlate : ∀ a ∈ w.world.attempts, ∀ x, a.reading = some x → x + 2 ≤ w.world.clock := by
    rw [hattempts, hclock]
    norm_num
  have hquiet : System.Undisturbed () ([] : List (System Unit × System.Label Unit × System Unit)) :=
    fun t ht => absurd ht List.not_mem_nil
  obtain ⟨-, -, vs, w'', hvs, -, -, hends⟩ :=
    halone () .enabled [] _ rfl hidle hup hlate .refl hquiet
  rw [List.nil_append] at hends
  exact ⟨ts, w, hrun, by rw [hattempts]; rfl, hapart, vs, w'', hvs, hends⟩

/-- An attempt that is held up between its reading and `from_url` may be begun right before the
next one. -/
theorem attempts_begun_close :
    ¬ ∀ ts w, Run (System.step true 2) (.start 0 : System Unit) ts w →
      w.world.attempts.Pairwise fun a b => a.begun + 2 ≤ b.begun := by
  intro h
  obtain ⟨ts, w, hrun, hattempts, -⟩ := run_heldUp
  have hpair := h ts w hrun
  rw [hattempts] at hpair
  have hclose := List.rel_of_pairwise_cons hpair List.mem_cons_self
  norm_num at hclose

end PolyGate.Gateway.Connections
