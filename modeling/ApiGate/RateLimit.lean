import ApiGate.Config

/-!
# Token buckets

`TokenBucket` counts in billionths of a token, in 64 bits, and reads a signed
64-bit nanosecond clock. `RouteRateLimits` holds one bucket for each limited
route.
-/

namespace ApiGate

def unitsPerToken : UInt64 := 1000000000

def ceilDivide (numerator denominator : UInt64) : UInt64 :=
  numerator / denominator + (if numerator % denominator ≠ 0 then 1 else 0)

structure RateLimitDecision where
  allowed : Bool := true
  retryAfterSeconds : UInt32 := 0
  deriving DecidableEq, Repr

/-- `steady_clock` time points, in nanoseconds. -/
abbrev TimePoint := Int64

structure TokenBucket where
  config : RateLimitConfig
  capacity : UInt64
  units : UInt64
  lastRefill : TimePoint
  deriving DecidableEq, Repr

namespace TokenBucket

/-- The constructor, which throws on values out of range. -/
def make (config : RateLimitConfig) (now : TimePoint) : Except Unit TokenBucket :=
  let capacity := config.burst.toUInt64 * unitsPerToken
  if config.requestsPerSecond = 0 || config.requestsPerSecond > 1000000
      || config.burst = 0 || config.burst > 1000000 then .error ()
  else .ok { config, capacity, units := capacity, lastRefill := now }

def refill (b : TokenBucket) (now : TimePoint) : TokenBucket :=
  if now ≤ b.lastRefill then b
  else
    -- the difference of the unsigned counts is right for any two clock values
    let ticks := now.toUInt64 - b.lastRefill.toUInt64
    let b := { b with lastRefill := now }
    if ticks ≥ b.config.burst.toUInt64 * unitsPerToken then { b with units := b.capacity }
    else
      let rate := b.config.requestsPerSecond.toUInt64
      let missing := b.capacity - b.units
      if ticks ≥ ceilDivide missing rate then { b with units := b.capacity }
      else { b with units := b.units + ticks * rate }

def tryAcquire (b : TokenBucket) (now : TimePoint) : RateLimitDecision × TokenBucket :=
  let b := b.refill now
  if b.units ≥ unitsPerToken then ({}, { b with units := b.units - unitsPerToken })
  else
    let wait := ceilDivide (unitsPerToken - b.units) b.config.requestsPerSecond.toUInt64
    (⟨false, (ceilDivide wait unitsPerToken).toUInt32⟩, b)

end TokenBucket

/-- One bucket for each route, `none` for a route without a limit. -/
abbrev RouteRateLimits := List (Option TokenBucket)

namespace RouteRateLimits

def make (now : TimePoint) : List RouteConfig → Except Unit RouteRateLimits
  | [] => .ok []
  | route :: rest => do
      let bucket ← match route.rateLimit with
        | some config => (TokenBucket.make config now).map some
        | none => .ok none
      let others ← make now rest
      pure (bucket :: others)

/-- Throws when there is no such route. -/
def tryAcquire (limits : RouteRateLimits) (routeIndex : Nat) (now : TimePoint) :
    Except Unit RateLimitDecision × RouteRateLimits :=
  match limits[routeIndex]? with
  | none => (.error (), limits)
  | some none => (.ok {}, limits)
  | some (some bucket) =>
      ((.ok (bucket.tryAcquire now).1), List.set limits routeIndex (some (bucket.tryAcquire now).2))

/-- The check for a route that may have no index, and then no limit. -/
def check (limits : RouteRateLimits) (routeIndex : Option Nat) (now : TimePoint) :
    Except Unit RateLimitDecision × RouteRateLimits :=
  match routeIndex with
  | none => (.ok {}, limits)
  | some r => limits.tryAcquire r now

end RouteRateLimits

end ApiGate
