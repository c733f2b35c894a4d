import Shaping.Basic

/-!
# Limiters

A `Limiter` holds one rate and the bookkeeping of the two ways to enforce it.

* A **token bucket** (`TokenBucket.offer`) lets bursts through: it holds at most one second's worth
  of tokens, earns them at the rate, and drops a packet that it has too few tokens for.  Rates below
  one megabyte per second are taken as no limit at all, because the bucket would hold less than some
  packets are long.
* A **pacer** (`Pacer.offer`) spreads packets out: it moves the departure of a packet to the earliest
  time at which the packets before it have been sent, and drops only what would have to wait two
  seconds or more.

Each keeps to its own part of the bookkeeping, so that one type serves both and the choice between
them, a `Discipline`, can be made per stage and direction.  What both promise is that a departure
time only ever moves forward.

## Rounding

Tokens are earned per whole microsecond and rounded down, once in the product and once in the
quotient, so a limiter never mints more than its rate.  Past a full second whole seconds are counted
instead: the bucket is full by then anyway, and the product would leave the range of a word much
sooner than before.  A clock that steps back earns nothing, and it does not move the time of the last
refill, so that what was earned once is not earned again when the clock comes forward.
-/

set_option autoImplicit false

namespace Shaping

/-- A rate limit with the bookkeeping of both disciplines. -/
structure Limiter where
  /-- Bytes per second; zero is no limit. -/
  rate : UInt64
  /-- When tokens were last earned, or `never`. -/
  refilledAt : UInt64
  /-- The tokens left. -/
  tokens : UInt64
  /-- The departure of the packet paced last, or `never`. -/
  lastDeparture : UInt64
  deriving DecidableEq

namespace Limiter

/-- An idle limiter of the given rate. -/
def idle (rate : UInt64) : Limiter := ⟨rate, never, 0, never⟩

/-- Change the rate and keep the bookkeeping. -/
def withRate (l : Limiter) (rate : UInt64) : Limiter := { l with rate }

/-- Forget the bookkeeping and keep the rate. -/
def reset (l : Limiter) : Limiter := idle l.rate

end Limiter

/-- What a limiter answers: the verdict, the departure afterwards, and its new state. -/
structure Admission where
  verdict : Verdict
  departure : UInt64
  limiter : Limiter

/-! ## The token bucket -/

namespace TokenBucket

/-- Buckets of a lower rate do not limit. -/
def minimumRate : UInt64 := megabyte

/-- The tokens earned at `rate` over `elapsed` nanoseconds. -/
def refill (rate elapsed : UInt64) : UInt64 :=
  let micros := elapsed / 1000
  if micros < 1000000 then Word.mulSat micros rate / 1000000
  else Word.mulSat (micros / 1000000) rate

/-- The tokens of a bucket at time `now`, before anything is taken out.  A bucket that was never used
is full. -/
def balance (l : Limiter) (now : UInt64) : UInt64 :=
  if l.refilledAt = never then l.rate
  else min (Word.addSat l.tokens (refill l.rate (Word.subSat now l.refilledAt))) l.rate

/-- The time of the last refill after a look at time `now`. -/
def refillTime (l : Limiter) (now : UInt64) : UInt64 :=
  if l.refilledAt = never ∨ l.refilledAt < now then now else l.refilledAt

/-- Let a packet of `size` bytes through if there are as many tokens, and take them. -/
def offer (l : Limiter) (size now : UInt64) : Verdict × Limiter :=
  if l.rate < minimumRate then (.pass, l)
  else
    let tokens := balance l now
    let refilledAt := refillTime l now
    if size ≤ tokens then (.pass, { l with refilledAt, tokens := tokens - size })
    else (.drop, { l with refilledAt, tokens })

end TokenBucket

/-! ## The pacer -/

namespace Pacer

/-- A packet that would wait this long or longer is dropped. -/
def horizon : UInt64 := 2 * second

/-- The nanoseconds that `size` bytes take at `rate` bytes per second, rounded down. -/
def transmissionTime (size rate : UInt64) : UInt64 :=
  Word.clamp (size.toNat * second.toNat / rate.toNat)

/-- `transmissionTime` as a request of its own, where the rate may be zero. -/
def transmissionTime? (size rate : UInt64) : Except Trap UInt64 :=
  if rate = 0 then .error .division else .ok (transmissionTime size rate)

/-- Give a packet of `size` bytes that wants to leave at `departure` its turn after the packet paced
last.  A departure in the past stands for now, and a turn that has already come leaves the departure
as it was requested. -/
def offer (l : Limiter) (size departure now : UInt64) : Admission :=
  if l.rate = 0 then ⟨.pass, departure, l⟩
  else
    let requested := max departure now
    if l.lastDeparture = never then
      ⟨.pass, departure, { l with lastDeparture := requested }⟩
    else
      let turn := Word.addSat l.lastDeparture (transmissionTime size l.rate)
      if turn ≤ requested then ⟨.pass, departure, { l with lastDeparture := requested }⟩
      else if horizon ≤ turn - now then ⟨.drop, departure, l⟩
      else ⟨.pass, turn, { l with lastDeparture := turn }⟩

end Pacer

/-! ## Choosing between them -/

/-- The way in which a stage enforces its limits. -/
inductive Discipline where
  | tokenBucket
  | pacer
  deriving DecidableEq

namespace Discipline

/-- The name of a discipline, in configuration files as in reports. -/
def name : Discipline → String
  | .tokenBucket => "token_bucket"
  | .pacer => "edt"

/-- The discipline of a direction for which none is configured.  What has already arrived cannot
usefully be delayed, so ingress drops and egress paces. -/
def preferred : Direction → Discipline
  | .ingress => .tokenBucket
  | .egress => .pacer

/-- Ask a limiter about a packet of `size` bytes that wants to leave at `departure`. -/
def offer (discipline : Discipline) (l : Limiter) (size departure now : UInt64) : Admission :=
  match discipline with
  | .tokenBucket =>
    match TokenBucket.offer l size now with
    | (verdict, limiter) => ⟨verdict, departure, limiter⟩
  | .pacer => Pacer.offer l size departure now

end Discipline

end Shaping
