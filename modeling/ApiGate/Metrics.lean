import Mathlib.Algebra.Group.Nat.Defs
import ApiGate.RateLimit

/-!
# Metrics

The counters of `Metrics` and the one-shot flags of `RequestObservation` that
decide when a request is counted. Counters are 64-bit and stop at the top; the
floating-point sum of processing times and the text that `render` makes of the
counters are left out.
-/

namespace ApiGate

inductive RejectionReason where
  | rateLimit
  | proxyCapacity
  | bufferCapacity
  | noHealthyUpstream
  deriving DecidableEq, Repr

inductive ProxyFailureStage where
  | resolve
  | connect
  | handshake
  | write
  | read
  | timeout
  | responseTooLarge
  | invalidResponse
  deriving DecidableEq, Repr

def saturatingIncrement (value : UInt64) : UInt64 :=
  if value ≠ 18446744073709551615 then value + 1 else value

/-- `responses` is indexed by the status minus 100; the last place, 500, counts
every status outside 100 to 599. -/
structure Metrics where
  responses : Nat → UInt64 := fun _ => 0
  rejections : RejectionReason → UInt64 := fun _ => 0
  failures : ProxyFailureStage → UInt64 := fun _ => 0
  processingCount : UInt64 := 0

namespace Metrics

def bump {κ : Type} [DecidableEq κ] (counters : κ → UInt64) (k : κ) : κ → UInt64 :=
  fun j => if j = k then saturatingIncrement (counters j) else counters j

def responseIndex (status : Nat) : Nat :=
  if status ≥ 100 && status ≤ 599 then status - 100 else 500

def response (m : Metrics) (status : Nat) : Metrics :=
  { m with responses := bump m.responses (responseIndex status) }

def rejection (m : Metrics) (reason : RejectionReason) : Metrics :=
  { m with rejections := bump m.rejections reason }

def upstreamFailure (m : Metrics) (stage : ProxyFailureStage) : Metrics :=
  { m with failures := bump m.failures stage }

/-- The elapsed time is a difference of two clock readings; a negative one is
not counted. -/
def processing (m : Metrics) (started now : TimePoint) : Metrics :=
  if now < started then m
  else { m with processingCount := saturatingIncrement m.processingCount }

end Metrics

/-- The counters of a `Metrics`, one by one. -/
inductive Counter where
  | response (index : Nat)
  | rejection (reason : RejectionReason)
  | failure (stage : ProxyFailureStage)
  | processing
  deriving DecidableEq, Repr

/-- `status` is not in the source: it remembers what `finish` was called with. -/
structure RequestObservation where
  started : Option TimePoint := none
  excluded : Bool := false
  completed : Bool := false
  rejected : Bool := false
  failed : Bool := false
  status : Option Nat := none
  deriving DecidableEq, Repr

/-- `metrics` is `none` when they are disabled. -/
abbrev Observed := RequestObservation × Option Metrics

namespace RequestObservation

def exclude (o : RequestObservation) (excluded : Bool) : RequestObservation := { o with excluded }

def begin (o : RequestObservation) (now : TimePoint) : RequestObservation :=
  if o.started.isNone && !o.completed then { o with started := some now } else o

/-- The result says whether this was the first call. -/
def finish (o : RequestObservation) (metrics : Option Metrics) (status : Nat) (now : TimePoint) :
    Bool × Observed :=
  if o.completed then (false, o, metrics)
  else
    let o' := { o with completed := true, status := some status }
    match metrics with
    | some m =>
        if o.excluded then (true, o', some m)
        else
          match o.started with
          | some start => (true, o', some ((m.response status).processing start now))
          | none => (true, o', some (m.response status))
    | none => (true, o', none)

def reject (o : RequestObservation) (metrics : Option Metrics) (reason : RejectionReason) :
    Observed :=
  match metrics with
  | some m =>
      if !o.excluded && !o.completed && !o.rejected then
        ({ o with rejected := true }, some (m.rejection reason))
      else (o, some m)
  | none => (o, none)

def failStream (o : RequestObservation) (metrics : Option Metrics) (stage : ProxyFailureStage) :
    Observed :=
  match metrics with
  | some m =>
      if !o.excluded && !o.failed then
        ({ o with failed := true }, some (m.upstreamFailure stage))
      else (o, some m)
  | none => (o, none)

def fail (o : RequestObservation) (metrics : Option Metrics) (stage : ProxyFailureStage) :
    Observed :=
  if o.completed then (o, metrics) else o.failStream metrics stage

/-! ## What is counted

The counters that a call increments; the source has them only as effects. -/

def finishCounts (o : RequestObservation) (metrics : Option Metrics) (status : Nat)
    (now : TimePoint) : List Counter :=
  if o.completed || o.excluded || metrics.isNone then []
  else
    .response (Metrics.responseIndex status) ::
      if o.started.any fun start => start ≤ now then [.processing] else []

end RequestObservation

/-- The calls besides `finish`. -/
inductive ObservationCall where
  | reject (reason : RejectionReason)
  | fail (stage : ProxyFailureStage)
  | failStream (stage : ProxyFailureStage)
  deriving DecidableEq, Repr

namespace ObservationCall

def apply (call : ObservationCall) (o : RequestObservation) (metrics : Option Metrics) :
    Observed :=
  match call with
  | .reject reason => o.reject metrics reason
  | .fail stage => o.fail metrics stage
  | .failStream stage => o.failStream metrics stage

def counts (call : ObservationCall) (o : RequestObservation) (metrics : Option Metrics) :
    List Counter :=
  if metrics.isNone || o.excluded then []
  else
    match call with
    | .reject reason => if o.completed || o.rejected then [] else [.rejection reason]
    | .fail stage => if o.completed || o.failed then [] else [.failure stage]
    | .failStream stage => if o.failed then [] else [.failure stage]

end ObservationCall

namespace RequestObservation

/-! ## Only `finish` completes an observation -/

@[simp] theorem begin_completed (o : RequestObservation) (now : TimePoint) :
    (o.begin now).completed = o.completed := by
  unfold begin
  split <;> rfl

theorem begin_excluded (o : RequestObservation) (now : TimePoint) :
    (o.begin now).excluded = o.excluded := by
  unfold begin
  split <;> rfl

theorem begin_failed (o : RequestObservation) (now : TimePoint) :
    (o.begin now).failed = o.failed := by
  unfold begin
  split <;> rfl

theorem begin_rejected (o : RequestObservation) (now : TimePoint) :
    (o.begin now).rejected = o.rejected := by
  unfold begin
  split <;> rfl

theorem reject_excluded (o : RequestObservation) (metrics : Option Metrics)
    (reason : RejectionReason) : (o.reject metrics reason).1.excluded = o.excluded := by
  unfold reject
  split
  · split <;> rfl
  · rfl

theorem reject_failed (o : RequestObservation) (metrics : Option Metrics)
    (reason : RejectionReason) : (o.reject metrics reason).1.failed = o.failed := by
  unfold reject
  split
  · split <;> rfl
  · rfl

@[simp] theorem reject_completed (o : RequestObservation) (metrics : Option Metrics)
    (reason : RejectionReason) : (o.reject metrics reason).1.completed = o.completed := by
  unfold reject
  split
  · split <;> rfl
  · rfl

@[simp] theorem failStream_completed (o : RequestObservation) (metrics : Option Metrics)
    (stage : ProxyFailureStage) : (o.failStream metrics stage).1.completed = o.completed := by
  unfold failStream
  split
  · split <;> rfl
  · rfl

@[simp] theorem fail_completed (o : RequestObservation) (metrics : Option Metrics)
    (stage : ProxyFailureStage) : (o.fail metrics stage).1.completed = o.completed := by
  unfold fail
  split
  · rfl
  · simp

@[simp] theorem finish_completed (o : RequestObservation) (metrics : Option Metrics)
    (status : Nat) (now : TimePoint) : (o.finish metrics status now).2.1.completed = true := by
  unfold finish
  split
  · assumption
  · repeat' split
    all_goals rfl

@[simp] theorem call_completed (call : ObservationCall) (o : RequestObservation)
    (metrics : Option Metrics) : (call.apply o metrics).1.completed = o.completed := by
  cases call with
  | reject reason => exact reject_completed o metrics reason
  | fail stage => exact fail_completed o metrics stage
  | failStream stage => exact failStream_completed o metrics stage

theorem finish_observation {o : RequestObservation} (h : o.completed = false)
    (metrics : Option Metrics) (status : Nat) (now : TimePoint) :
    (o.finish metrics status now).2.1 = { o with completed := true, status := some status } := by
  unfold finish
  rw [if_neg (by simp [h])]
  dsimp only
  repeat' split
  all_goals rfl

theorem finish_status {o : RequestObservation} (h : o.completed = false)
    (metrics : Option Metrics) (status : Nat) (now : TimePoint) :
    (o.finish metrics status now).2.1.status = some status := by
  rw [finish_observation h]

end RequestObservation

namespace Metrics

/-! ## The counters -/

def value (m : Metrics) : Counter → UInt64
  | .response index => m.responses index
  | .rejection reason => m.rejections reason
  | .failure stage => m.failures stage
  | .processing => m.processingCount

def increment (m : Metrics) : Counter → Metrics
  | .response index => { m with responses := bump m.responses index }
  | .rejection reason => m.rejection reason
  | .failure stage => m.upstreamFailure stage
  | .processing => { m with processingCount := saturatingIncrement m.processingCount }

theorem value_increment (m : Metrics) (c counter : Counter) :
    (m.increment c).value counter
      = if counter = c then saturatingIncrement (m.value counter) else m.value counter := by
  cases c <;> cases counter <;> simp [increment, value, bump, rejection, upstreamFailure]

theorem toNat_saturatingIncrement (value : UInt64) :
    (saturatingIncrement value).toNat = min (2 ^ 64 - 1) (value.toNat + 1) := by
  unfold saturatingIncrement
  have hlt := value.toNat_lt
  split
  · rename_i hne
    have hlow : value.toNat ≠ 2 ^ 64 - 1 := fun heq => hne (UInt64.toNat_inj.mp heq)
    rw [UInt64.toNat_add, UInt64.toNat_one, Nat.mod_eq_of_lt (by omega)]
    omega
  · rename_i heq
    have htop : value.toNat = 2 ^ 64 - 1 := by simp [not_not.mp heq]
    omega

/-- Every counter stops at the top. -/
theorem value_increments (counters : List Counter) (m : Metrics) (counter : Counter) :
    ((counters.foldl increment m).value counter).toNat
      = min (2 ^ 64 - 1) ((m.value counter).toNat + counters.count counter) := by
  induction counters generalizing m with
  | nil =>
      have hlt := (m.value counter).toNat_lt
      simp only [List.foldl_nil, List.count_nil]
      omega
  | cons c counters ih =>
      rw [List.foldl_cons, ih, value_increment]
      by_cases heq : counter = c
      · rw [if_pos heq, heq, List.count_cons_self, toNat_saturatingIncrement]
        omega
      · rw [if_neg heq, List.count_cons_of_ne (Ne.symm heq)]

end Metrics

namespace RequestObservation

/-- What `finish` counts is what it increments. -/
theorem finish_metrics (o : RequestObservation) (m : Metrics) (status : Nat) (now : TimePoint) :
    (o.finish (some m) status now).2.2
      = some ((o.finishCounts (some m) status now).foldl Metrics.increment m) := by
  unfold finish finishCounts
  cases o.completed with
  | true => rfl
  | false =>
      cases o.excluded with
      | true => rfl
      | false =>
          cases hs : o.started with
          | none => rfl
          | some start =>
              by_cases hlt : now < start
              · have hle : ¬start ≤ now := Int64.not_le.mpr hlt
                simp [Metrics.processing, hlt, hle, Metrics.increment, Metrics.response]
              · have hle : start ≤ now := Int64.not_lt.mp hlt
                simp [Metrics.processing, hlt, hle, Metrics.increment, Metrics.response]

theorem call_metrics (o : RequestObservation) (m : Metrics) (call : ObservationCall) :
    (call.apply o (some m)).2 = some ((call.counts o (some m)).foldl Metrics.increment m) := by
  cases call <;> simp only [ObservationCall.apply, ObservationCall.counts, reject, fail, failStream]
    <;> cases o.excluded <;> cases o.completed <;> cases o.rejected <;> cases o.failed <;> rfl

end RequestObservation

end ApiGate
