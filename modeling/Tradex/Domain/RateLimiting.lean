import Tradex.Foundation.Dict
import Mathlib.Algebra.Order.Field.Rat

/-!
# Rate limiting

A token bucket, a rolling window of recorded instants, and the limiter that puts a bucket and
several windows in front of a category of requests.
-/

namespace Tradex.Domain

structure RateLimitConfig where
  ratePerSecond : ℚ := 5
  capacity : ℤ := 10
  minInterval : ℚ := 0
  cooldownSeconds : ℚ := 60
  waitCooldown : Bool := false

structure TokenBucketRateLimiter where
  rate : ℚ
  burst : ℤ
  minInterval : ℚ
  cooldownSeconds : ℚ
  waitCooldown : Bool
  tokens : ℚ
  lastRefill : ℚ
  lastAcquire : ℚ
  cooldownUntil : ℚ
  tokens_le_burst : tokens ≤ burst

structure Poll where
  now : ℚ
  refillAt : ℚ
  checkAt : ℚ
  now_le : now ≤ refillAt
  refillAt_le : refillAt ≤ checkAt

namespace TokenBucketRateLimiter

def ofConfig (cfg : RateLimitConfig) (now : ℚ) : TokenBucketRateLimiter where
  rate := cfg.ratePerSecond
  burst := cfg.capacity
  minInterval := cfg.minInterval
  cooldownSeconds := cfg.cooldownSeconds
  waitCooldown := cfg.waitCooldown
  tokens := cfg.capacity
  lastRefill := now
  lastAcquire := 0
  cooldownUntil := 0
  tokens_le_burst := le_rfl

variable (bucket : TokenBucketRateLimiter) (now : ℚ)

def refill : TokenBucketRateLimiter :=
  { bucket with
    tokens := min (bucket.burst : ℚ) (bucket.tokens + (now - bucket.lastRefill) * bucket.rate)
    lastRefill := now
    tokens_le_burst := min_le_left _ _ }

def spaced : Prop :=
  bucket.minInterval ≤ 0 ∨ bucket.minInterval ≤ now - bucket.lastAcquire

instance (bucket : TokenBucketRateLimiter) (now : ℚ) : Decidable (bucket.spaced now) :=
  inferInstanceAs (Decidable (_ ∨ _))

def take (units : ℕ) (now : ℚ) : TokenBucketRateLimiter :=
  { bucket with
    tokens := bucket.tokens - units
    lastAcquire := now
    tokens_le_burst := (sub_le_self _ (Nat.cast_nonneg units)).trans bucket.tokens_le_burst }

def attempt (units : ℕ) (bucket : TokenBucketRateLimiter) (poll : Poll) :
    Except String (Bool × TokenBucketRateLimiter) :=
  if poll.now < bucket.cooldownUntil then
    if bucket.waitCooldown then .ok (false, bucket) else .error "rate limiter cooldown"
  else if bucket.spaced poll.now then
    let refilled := bucket.refill poll.refillAt
    if units ≤ refilled.tokens then .ok (true, refilled.take units poll.now)
    else .ok (false, refilled)
  else .ok (false, bucket)

def acquire (units : ℕ) (deadline : Option ℚ) :
    ℕ → TokenBucketRateLimiter → (ℕ → Poll) → Option (Except String Unit × TokenBucketRateLimiter)
  | 0, _, _ => none
  | fuel + 1, bucket, polls =>
    match bucket.attempt units (polls 0) with
    | .error err => some (.error err, bucket)
    | .ok (true, bucket) => some (.ok (), bucket)
    | .ok (false, bucket) =>
      if ∃ limit ∈ deadline, limit ≤ (polls 0).checkAt then
        some (.error "rate limiter acquire timed out", bucket)
      else acquire units deadline fuel bucket fun turn ↦ polls (turn + 1)

def reduceRate (factor : ℚ) : TokenBucketRateLimiter :=
  { bucket with rate := bucket.rate * factor }

def triggerCooldown : TokenBucketRateLimiter :=
  { bucket with cooldownUntil := now + bucket.cooldownSeconds }

end TokenBucketRateLimiter

structure RollingWindowCounter where
  maxCount : ℕ
  window : ℚ
  timestamps : List ℚ
  recorded : List ℚ
  maxCount_pos : 1 ≤ maxCount
  window_pos : 0 < window

namespace RollingWindowCounter

variable (ctr : RollingWindowCounter)

def expired (now instant : ℚ) : Bool :=
  instant ≤ now - ctr.window

variable (now : ℚ)

def prune : RollingWindowCounter :=
  { ctr with timestamps := ctr.timestamps.dropWhile (ctr.expired now) }

def full : Prop :=
  ctr.maxCount ≤ (ctr.prune now).timestamps.length

instance (ctr : RollingWindowCounter) (now : ℚ) : Decidable (ctr.full now) :=
  inferInstanceAs (Decidable (_ ≤ _))

def extend (instants : List ℚ) : RollingWindowCounter :=
  { ctr with
    timestamps := ctr.timestamps ++ instants
    recorded := ctr.recorded ++ instants }

def record : Bool × RollingWindowCounter :=
  if ctr.full now then (false, ctr.prune now)
  else (true, (ctr.prune now).extend [now])

end RollingWindowCounter

structure Readings where
  recordAt : ℕ → ℚ
  createdAt : ℚ
  startedAt : ℚ
  polls : ℕ → Poll
  recordAt_le : ∀ index, recordAt index ≤ recordAt (index + 1)
  recordAt_le_createdAt : ∀ index, recordAt index ≤ createdAt
  createdAt_le : createdAt ≤ startedAt
  startedAt_le : startedAt ≤ (polls 0).now
  polls_le : ∀ turn, (polls turn).checkAt ≤ (polls (turn + 1)).now

structure MultiBucketRateLimiter where
  defaultCfg : RateLimitConfig
  buckets : Dict String TokenBucketRateLimiter
  rolling : Dict String (List RollingWindowCounter)

def recordAll : List RollingWindowCounter → (ℕ → ℚ) → Bool × List RollingWindowCounter
  | [], _ => (true, [])
  | ctr :: rest, recordAt =>
    match ctr.record (recordAt 0) with
    | (false, ctr) => (false, ctr :: rest)
    | (true, ctr) =>
      let (admitted, rest) := recordAll rest fun index ↦ recordAt (index + 1)
      (admitted, ctr :: rest)

namespace MultiBucketRateLimiter

variable (lim : MultiBucketRateLimiter) (cat : String)

def bucketOf (now : ℚ) : TokenBucketRateLimiter :=
  (lim.buckets.get cat).getD (.ofConfig lim.defaultCfg now)

def windowsOf : List RollingWindowCounter :=
  (lim.rolling.get cat).getD []

def setBucket (bucket : TokenBucketRateLimiter) : MultiBucketRateLimiter :=
  { lim with buckets := lim.buckets.set cat bucket }

def setWindows (windows : List RollingWindowCounter) : MultiBucketRateLimiter :=
  match lim.rolling.get cat with
  | none => lim
  | some _ => { lim with rolling := lim.rolling.set cat windows }

def deadlineOf (timeout : Option ℚ) (reads : Readings) : Option ℚ :=
  timeout.map fun seconds ↦ reads.startedAt + seconds

def acquire (lim : MultiBucketRateLimiter) (cat : String) (_tokens : ℤ)
    (timeout : Option ℚ) (reads : Readings) (fuel : ℕ) :
    Option (Bool × MultiBucketRateLimiter) :=
  match recordAll (lim.windowsOf cat) reads.recordAt with
  | (false, windows) => some (false, lim.setWindows cat windows)
  | (true, windows) =>
    let lim := lim.setWindows cat windows
    let bucket := lim.bucketOf cat reads.createdAt
    match bucket.acquire 1 (deadlineOf timeout reads) fuel reads.polls with
    | none => none
    | some (.ok (), bucket) => some (true, lim.setBucket cat bucket)
    | some (.error _, bucket) => some (false, lim.setBucket cat bucket)

def reduceRate (lim : MultiBucketRateLimiter) (cat : String) (factor now : ℚ) :
    MultiBucketRateLimiter :=
  lim.setBucket cat ((lim.bucketOf cat now).reduceRate factor)

def triggerCooldown (lim : MultiBucketRateLimiter) (cat : String) (createdAt now : ℚ) :
    MultiBucketRateLimiter :=
  lim.setBucket cat ((lim.bucketOf cat createdAt).triggerCooldown now)

end MultiBucketRateLimiter

end Tradex.Domain
