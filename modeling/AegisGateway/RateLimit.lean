import AegisGateway.Errors
import Mathlib.Data.List.AList

/-!
# The token bucket of a tenant

`control/rate_limit.py`.
-/

namespace AegisGateway

structure Bucket where
  tokens : ℚ
  updatedAt : ℚ
  deriving DecidableEq, Repr

structure LimiterSettings where
  ratePerSecond : ℚ := 5
  burst : Nat := 20
  rate_pos : 0 < ratePerSecond := by decide +kernel
  burst_pos : 0 < burst := by decide

abbrev Buckets : Type := AList fun _ : String => Bucket

namespace Bucket

def refill (cfg : LimiterSettings) (now : ℚ) (b : Bucket) : Bucket :=
  let elapsed := max 0 (now - b.updatedAt)
  { tokens := min cfg.burst (b.tokens + elapsed * cfg.ratePerSecond), updatedAt := now }

end Bucket

/-- `TokenBucketLimiter.consume`. A denied call has refilled its bucket all the same. -/
def Buckets.consume (cfg : LimiterSettings) (now : ℚ) (buckets : Buckets) (key : String)
    (tokens : ℚ) : Except PyExc ℚ × Buckets :=
  if tokens ≤ 0 ∨ cfg.burst < tokens then
    (.error (.valueError "tokens must be in (0, burst]"), buckets)
  else
    let bucket := ((buckets.lookup key).getD ⟨cfg.burst, now⟩).refill cfg now
    if bucket.tokens < tokens then
      let retryAfter := (tokens - bucket.tokens) / cfg.ratePerSecond
      (.error (.aegis (.rateLimitExceeded
          s!"tenant rate limit exceeded; retry after {formatFixed 3 retryAfter}s")),
        buckets.insert key bucket)
    else
      (.ok (bucket.tokens - tokens),
        buckets.insert key { bucket with tokens := bucket.tokens - tokens })

end AegisGateway
