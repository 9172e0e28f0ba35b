import SurrealPg.Basic
import Mathlib.Algebra.Group.Nat.Defs
import Mathlib.Order.Lattice

/-!
# The back-off of the heartbeat

The loop of `direct_mode_heartbeat`, round by round: it sleeps for the interval, connects if it has
no connection, and sends `SELECT 1`. What the server makes of a connection attempt and of the
`SELECT 1` is given for every round; the loop is not cancelled.

The back-off is documented as growing with the square of the number of heartbeats that have failed
in a row. The counter it is computed from is another one: it starts again with every connection
that is established, whatever becomes of the `SELECT 1` on it, and the back-off is slept only after
a failed connection attempt. What is slept before the next attempt is therefore known in each case,
and with it exactly when it is as long as documented.
-/

namespace SurrealPg

namespace Backoff

/-! ## The loop -/

/-- What the server makes of a round: whether a connection attempt, if there is one, succeeds, and
whether `SELECT 1`, if it is sent, is answered in time and without an error. -/
structure Answers where
  connect : Bool
  select1 : Bool

/-- What the loop does, with the result. -/
inductive Action
  | sleep (d : Duration)
  | connect (ok : Bool)
  | select1 (ok : Bool)
  deriving DecidableEq

/-- The variables of the loop: whether there is a connection, and a `u32`. -/
structure Heartbeat where
  conn : Bool
  consecutiveFailures : ℕ
  deriving DecidableEq

def U64_MAX : ℕ := 2 ^ 64 - 1

def saturatingMul (a b : ℕ) : ℕ := min (a * b) U64_MAX

/-- `min(consecutive^2 * 5s, 5min)` -/
def backoffSecs (consecutiveFailures : ℕ) : ℕ :=
  min (saturatingMul (saturatingMul consecutiveFailures consecutiveFailures) 5) 300

/-- `consecutive_failures += 1`, which wraps around in a release build. -/
def increment (consecutiveFailures : ℕ) : ℕ := (consecutiveFailures + 1) % 2 ^ 32

/-- `SELECT 1` on the connection there is. A failed one is dropped with it. -/
def query (consecutiveFailures : ℕ) (answers : Answers) : List Action × Heartbeat :=
  if answers.select1 then ([.select1 true], ⟨true, 0⟩)
  else ([.select1 false], ⟨false, increment consecutiveFailures⟩)

/-- One round. -/
def round (interval : Duration) (h : Heartbeat) (answers : Answers) : List Action × Heartbeat :=
  if h.conn then
    let (actions, h') := query h.consecutiveFailures answers
    (.sleep interval :: actions, h')
  else if answers.connect then
    let (actions, h') := query 0 answers
    (.sleep interval :: .connect true :: actions, h')
  else
    let n := increment h.consecutiveFailures
    ([.sleep interval, .connect false, .sleep (.fromSecs (backoffSecs n))], ⟨false, n⟩)

section

variable (interval : Duration) (answers : ℕ → Answers)

/-- The state at the beginning of a round. -/
def state : ℕ → Heartbeat
  | 0 => ⟨false, 0⟩
  | r + 1 => (round interval (state r) (answers r)).2

def actions (r : ℕ) : List Action := (round interval (state interval answers r) (answers r)).1

end

/-! ## What is documented -/

/-- The action a round fails with. -/
def Action.failed : Action → Bool
  | .connect ok | .select1 ok => !ok
  | .sleep _ => false

def Action.isConnect : Action → Bool
  | .connect _ => true
  | _ => false

/-- The nanoseconds slept. -/
def slept : List Action → ℕ
  | [] => 0
  | .sleep d :: actions => d.nanos + slept actions
  | _ :: actions => slept actions

section

variable (interval : Duration) (answers : ℕ → Answers)

/-- What is slept after a failure in round `r` and before the next round's connection attempt. -/
def sleptAfter (r : ℕ) : ℕ :=
  slept (((actions interval answers r).dropWhile fun a ↦ !a.failed) ++
    (actions interval answers (r + 1)).takeWhile fun a ↦ !a.isConnect)

/-- Whether the round before `r` ended with a successful `SELECT 1`. -/
def afterSuccess : ℕ → Bool
  | 0 => false
  | r + 1 => (afterSuccess r || (answers r).connect) && (answers r).select1

/-- How many rounds before `r` have failed since the last successful `SELECT 1`. -/
def failedRounds : ℕ → ℕ
  | 0 => 0
  | r + 1 => if afterSuccess answers (r + 1) then 0 else failedRounds r + 1

/-- After the `n`-th failure in a row the task sleeps `5n²` seconds, or five minutes, before it
connects again. -/
def BacksOff : Prop :=
  ∀ r, (actions interval answers r).any Action.failed = true →
    (Duration.fromSecs (min (5 * failedRounds answers (r + 1) ^ 2) 300)).nanos ≤
      sleptAfter interval answers r

/-- There is no connection when round `r` begins, and the attempt to make one fails. -/
def connectFails (r : ℕ) : Bool := !afterSuccess answers r && !(answers r).connect

/-- How many rounds before `r` have failed since a connection was last established. A connection on
which `SELECT 1` fails at once is the first of them. -/
def sinceConnected : ℕ → ℕ
  | 0 => 0
  | r + 1 =>
    if afterSuccess answers (r + 1) then 0
    else if connectFails answers r then sinceConnected r + 1
    else 1

end

/-! ## The loop, from outside -/

theorem backoffSecs_eq {n : ℕ} (h : n < 2 ^ 32) : backoffSecs n = min (5 * n ^ 2) 300 := by
  have hsquare : n * n ≤ (2 ^ 32 - 1) * (2 ^ 32 - 1) := Nat.mul_le_mul (by omega) (by omega)
  rw [backoffSecs, saturatingMul, saturatingMul, U64_MAX, pow_two]
  omega

variable {interval : Duration} {answers : ℕ → Answers} {r : ℕ}

theorem afterSuccess_succ : afterSuccess answers (r + 1) =
    ((afterSuccess answers r || (answers r).connect) && (answers r).select1) := rfl

theorem sinceConnected_of_afterSuccess (h : afterSuccess answers r = true) :
    sinceConnected answers r = 0 := by
  cases r with
  | zero => rfl
  | succ r => rw [sinceConnected, if_pos h]

/-- There is a connection exactly after a successful `SELECT 1`, and the counter counts the failures
since a connection was last established. -/
theorem state_eq (interval : Duration) (answers : ℕ → Answers) (r : ℕ) :
    state interval answers r = ⟨afterSuccess answers r, sinceConnected answers r % 2 ^ 32⟩ := by
  induction r with
  | zero => rfl
  | succ r ih =>
    rw [state, ih, sinceConnected, connectFails, afterSuccess_succ, round]
    cases hafter : afterSuccess answers r with
    | true =>
      rw [sinceConnected_of_afterSuccess hafter]
      cases hselect : (answers r).select1 <;> simp [query, increment, hselect]
    | false =>
      cases hconnect : (answers r).connect with
      | true => cases hselect : (answers r).select1 <;> simp [query, increment, hselect]
      | false => simp [increment]

theorem actions_eq (interval : Duration) (answers : ℕ → Answers) (r : ℕ) :
    actions interval answers r = .sleep interval ::
      if afterSuccess answers r then [.select1 (answers r).select1]
      else if (answers r).connect then [.connect true, .select1 (answers r).select1]
      else [.connect false,
        .sleep (.fromSecs (backoffSecs (sinceConnected answers (r + 1) % 2 ^ 32)))] := by
  rw [actions, state_eq, sinceConnected, connectFails, afterSuccess_succ, round]
  cases hafter : afterSuccess answers r with
  | true => cases hselect : (answers r).select1 <;> simp [query, hselect]
  | false =>
    cases hconnect : (answers r).connect with
    | true => cases hselect : (answers r).select1 <;> simp [query, hselect]
    | false => simp [increment]

theorem any_failed_actions :
    (actions interval answers r).any Action.failed = !afterSuccess answers (r + 1) := by
  rw [actions_eq, afterSuccess_succ]
  cases afterSuccess answers r <;> cases (answers r).connect <;>
    cases (answers r).select1 <;> rfl

theorem takeWhile_actions (h : afterSuccess answers r = false) :
    (actions interval answers r).takeWhile (fun a ↦ !a.isConnect) = [.sleep interval] := by
  rw [actions_eq, h]
  cases (answers r).connect <;> rfl

theorem slept_append (l l' : List Action) : slept (l ++ l') = slept l + slept l' := by
  induction l with
  | nil => exact (Nat.zero_add _).symm
  | cons a l ih =>
    cases a with
    | sleep d => simp only [List.cons_append, slept, ih, Nat.add_assoc]
    | connect ok | select1 ok => simpa only [List.cons_append, slept] using ih

/-- **What is slept between a failure and the next connection attempt.** -/
theorem sleptAfter_eq (h : afterSuccess answers (r + 1) = false) :
    sleptAfter interval answers r = (if connectFails answers r then
      (Duration.fromSecs (min (5 * (sinceConnected answers (r + 1) % 2 ^ 32) ^ 2) 300)).nanos
      else 0) + interval.nanos := by
  have hcount : sinceConnected answers (r + 1) % 2 ^ 32 < 2 ^ 32 := Nat.mod_lt _ (by decide)
  have hafter : slept ((actions interval answers r).dropWhile fun a ↦ !a.failed) =
      if connectFails answers r then
        (Duration.fromSecs (backoffSecs (sinceConnected answers (r + 1) % 2 ^ 32))).nanos
      else 0 := by
    rw [afterSuccess_succ] at h
    rw [actions_eq, connectFails]
    cases hr : afterSuccess answers r with
    | true =>
      rw [hr, Bool.true_or, Bool.true_and] at h
      simp [h, Action.failed, slept]
    | false =>
      cases hc : (answers r).connect with
      | true =>
        rw [hr, hc, Bool.or_true, Bool.true_and] at h
        simp [h, Action.failed, slept]
      | false => simp [Action.failed, slept]
  rw [sleptAfter, slept_append, hafter, takeWhile_actions h, backoffSecs_eq hcount]
  rfl

/-- **The back-off grows with consecutive failures** exactly if, after each of them, the interval
and, where no connection was made, the back-off of the failures since the last connection are
together as long as the back-off of all failures in a row. -/
theorem backsOff_iff (interval : Duration) (answers : ℕ → Answers) :
    BacksOff interval answers ↔ ∀ r, afterSuccess answers (r + 1) = false →
      (Duration.fromSecs (min (5 * failedRounds answers (r + 1) ^ 2) 300)).nanos ≤
        (if connectFails answers r then
          (Duration.fromSecs (min (5 * (sinceConnected answers (r + 1) % 2 ^ 32) ^ 2) 300)).nanos
          else 0) + interval.nanos := by
  refine forall_congr' fun r ↦ ?_
  rw [any_failed_actions, Bool.not_eq_true']
  exact forall_congr' fun h ↦ by rw [sleptAfter_eq h]

/-- With the default interval of a minute, the fourth `SELECT 1` in a row that fails on a connection
of its own is followed by a minute of sleep, not by eighty seconds. -/
theorem not_backsOff_select1 :
    ¬∀ (interval : Duration) (answers : ℕ → Answers), BacksOff interval answers := by
  intro h
  have hfourth := h (.fromSecs 60) (fun _ ↦ ⟨true, false⟩) 3 (by decide +kernel)
  exact absurd hfourth (by decide +kernel)

end Backoff

end SurrealPg
