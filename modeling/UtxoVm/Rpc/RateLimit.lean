import UtxoVm.Reasoning.FixedWindow
import UtxoVm.Reasoning.RustStd

/-!
# The rate limiter (`rpc/server.rs`)

One fixed-window counter for each client.  Which client a request belongs to is read off its socket
address, or off the header of a proxy that the configuration trusts.  Instants are nanoseconds.
-/

namespace UtxoVm

open RustStd FixedWindow

def rateLimitWindowSecs : Nat := 1

def nanosPerSec : Nat := 10 ^ 9

/-- The map of windows is only read by key.  A poisoned lock refuses every request; no code panics
while it holds the lock, so that branch is left out. -/
structure RateLimiter where
  windows : String → Option Window
  maxRequests : Nat

/-- What the middleware sees of a request: the address of the connection, the header
`x-forwarded-for` if it is there and readable as text, and the instant of the check. -/
structure Arrival where
  socketIp : Option String
  forwardedFor : Option String
  now : Nat

namespace RateLimiter

def new (maxRequests : Nat) : RateLimiter := { windows := fun _ ↦ none, maxRequests }

/-- `check`, at the instant `now`: a window is over when a whole second has passed. -/
def check (limiter : RateLimiter) (key : String) (now : Nat) : RateLimiter × Bool :=
  let entry := (limiter.windows key).getD ⟨now, 0⟩
  let (entry', ok) :=
    if rateLimitWindowSecs ≤ (now - entry.start) / nanosPerSec then
      ((⟨now, 1⟩ : Window), true)
    else if entry.count < limiter.maxRequests then (⟨entry.start, entry.count + 1⟩, true)
    else (entry, false)
  ({ limiter with windows := fun k ↦ if k = key then some entry' else limiter.windows k }, ok)

/-- The client that `rate_limit_middleware` charges. -/
def clientKey (trustedProxyIps : List String) (a : Arrival) : String :=
  let realIp := a.socketIp.getD "unknown"
  if trustedProxyIps.any (· == realIp) then
    match a.forwardedFor.bind fun v ↦ (splitOn v ',').head? with
    | some first => trim first
    | none => realIp
  else realIp

/-- The requests that pass the limiter, in the order in which they take its lock. -/
def accepted (trustedProxyIps : List String) : RateLimiter → List Arrival → List Arrival
  | _, [] => []
  | limiter, a :: rest =>
      let (limiter', ok) := limiter.check (clientKey trustedProxyIps a) a.now
      if ok then a :: accepted trustedProxyIps limiter' rest
      else accepted trustedProxyIps limiter' rest

/-- A window in nanoseconds. -/
def windowNanos : Nat := rateLimitWindowSecs * nanosPerSec

/-- The requests of one interval that satisfy `p`. -/
def countWithin (begin len : Nat) (p : Arrival → Bool) (arrivals : List Arrival) : Nat :=
  (arrivals.filter fun a ↦ p a && decide (begin ≤ a.now ∧ a.now < begin + len)).length

/-! ## 1. One client at a time -/

theorem over_iff (now start : Nat) :
    rateLimitWindowSecs ≤ (now - start) / nanosPerSec ↔ windowNanos ≤ now - start := by
  unfold windowNanos
  exact Nat.le_div_iff_mul_le (by decide)

/-- A check is a step of the counter of its key. -/
theorem check_eq (limiter : RateLimiter) (key : String) (now : Nat) :
    limiter.check key now =
      ({ limiter with
          windows := fun k ↦
            if k = key then
              some (step windowNanos limiter.maxRequests (limiter.windows key) now).1
            else limiter.windows k },
        (step windowNanos limiter.maxRequests (limiter.windows key) now).2) := by
  unfold check step
  simp only [over_iff]

/-- **Clients are independent.**  Which of its requests pass depends on those requests alone. -/
theorem accepted_of_key (trustedProxyIps : List String) (limiter : RateLimiter)
    (arrivals : List Arrival) (key : String) :
    ((accepted trustedProxyIps limiter arrivals).filter
        (clientKey trustedProxyIps · == key)).map (·.now) =
      admitted windowNanos limiter.maxRequests (limiter.windows key)
        ((arrivals.filter (clientKey trustedProxyIps · == key)).map (·.now)) := by
  induction arrivals generalizing limiter with
  | nil => rfl
  | cons a rest ih =>
    unfold accepted
    rw [check_eq]
    dsimp only
    by_cases hkey : clientKey trustedProxyIps a = key
    · -- the request is of this client: one step of its counter
      rw [List.filter_cons_of_pos (by simpa using hkey), List.map_cons]
      conv_rhs => unfold admitted
      dsimp only
      rw [hkey]
      split
      · rw [List.filter_cons_of_pos (by simpa using hkey), List.map_cons, ih]
        simp
      · rw [ih]
        simp
    · -- of another one: its counter is not touched
      have hwindow : (if key = clientKey trustedProxyIps a then
          some (step windowNanos limiter.maxRequests
            (limiter.windows (clientKey trustedProxyIps a)) a.now).1
          else limiter.windows key) = limiter.windows key := if_neg (Ne.symm hkey)
      rw [List.filter_cons_of_neg (by simpa using hkey)]
      split
      · rw [List.filter_cons_of_neg (by simpa using hkey), ih]
        dsimp only
        rw [hwindow]
      · rw [ih]
        dsimp only
        rw [hwindow]

/-! ## 2. The bound -/

theorem countWithin_key (begin len : Nat) (trustedProxyIps : List String) (limiter : RateLimiter)
    (arrivals : List Arrival) (key : String) :
    countWithin begin len (clientKey trustedProxyIps · == key)
        (accepted trustedProxyIps limiter arrivals) =
      within windowNanos limiter.maxRequests begin len (limiter.windows key)
        ((arrivals.filter (clientKey trustedProxyIps · == key)).map (·.now)) := by
  unfold countWithin within
  rw [← accepted_of_key, List.filter_map, List.length_map, List.filter_filter]
  congr 1
  apply List.filter_congr
  intro a _
  simp only [Function.comp_apply]
  rw [Bool.and_comm]

/-- What a limit of `maxRequests` per second allows in an interval of `len` nanoseconds. -/
def allowance (maxRequests len : Nat) : Nat :=
  ((len + windowNanos - 1) / windowNanos + 1) * Nat.max 1 maxRequests

theorem countWithin_key_le (begin len maxRequests : Nat) (trustedProxyIps : List String)
    {arrivals : List Arrival} (hclock : (arrivals.map (·.now)).Pairwise (· ≤ ·)) (key : String) :
    countWithin begin len (clientKey trustedProxyIps · == key)
        (accepted trustedProxyIps (new maxRequests) arrivals) ≤ allowance maxRequests len := by
  rw [countWithin_key]
  apply within_le
  · decide
  · intro w hw
    cases hw
  · intro w hw
    cases hw
  · exact hclock.sublist (List.filter_sublist.map _)

/-- The header of a peer that is not a trusted proxy is not looked at. -/
theorem clientKey_untrusted {trustedProxyIps : List String} {a : Arrival} {ip : String}
    (hip : ip ∉ trustedProxyIps) (ha : a.socketIp = some ip) :
    clientKey trustedProxyIps a = ip := by
  unfold clientKey
  rw [ha, Option.getD_some]
  dsimp only
  rw [if_neg]
  simpa using hip

/-- **The limit cannot be evaded.**  However the requests of all clients are mixed, and whatever
headers a peer that is no trusted proxy sends with its own: in no interval do more of them pass than
the limit allows. -/
theorem untrusted_peer_bounded (maxRequests : Nat) (trustedProxyIps : List String)
    (arrivals : List Arrival) (hclock : (arrivals.map (·.now)).Pairwise (· ≤ ·)) (ip : String)
    (hip : ip ∉ trustedProxyIps) (begin len : Nat) :
    countWithin begin len (·.socketIp == some ip)
        (accepted trustedProxyIps (new maxRequests) arrivals) ≤ allowance maxRequests len := by
  refine le_trans ?_ (countWithin_key_le begin len maxRequests trustedProxyIps hclock ip)
  unfold countWithin
  apply List.Sublist.length_le
  apply List.monotone_filter_right
  intro a ha
  simp only [Bool.and_eq_true, beq_iff_eq] at ha ⊢
  exact ⟨clientKey_untrusted hip ha.1, ha.2⟩

/-- A peer that sends another address with each request. -/
def demoForger : List Arrival :=
  (List.range 5).map fun n ↦
    { socketIp := some "6.6.6.6", forwardedFor := some (toString n), now := n * 10 ^ 8 }

theorem forger_bounded :
    countWithin 0 (10 ^ 9) (·.socketIp == some "6.6.6.6") (accepted [] (new 2) demoForger) ≤ 4 :=
  untrusted_peer_bounded 2 [] demoForger (by decide) "6.6.6.6" (by simp) 0 (10 ^ 9)

example : (accepted [] (new 2) demoForger).length = 2 := by decide +kernel

end RateLimiter

end UtxoVm
