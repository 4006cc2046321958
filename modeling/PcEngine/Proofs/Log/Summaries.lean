/-
PcEngine/Proofs/Log/Summaries.lean

How many summaries of a category are written in the first second of a log.

There are two occasions for a summary.  One is a dropped message, and then the time of
the last summary is looked at, so that the next one is a second away.  The other is a
message that gets through after others have been dropped, and then it is not looked at.
While nothing leaves the window, a message can get through after a dropped one only if
the limit has been raised between the two.  So there may be a summary for each time
that the limit is raised, besides the first.

The argument is amortised: `Limiter.credit` is what a limiter can still give without a
raise.  A summary costs one, and a raise brings one at most.

Main result: in any stretch of the first second there is at most one summary more than
there are raises of the limit (`summaries_stretch`).
-/
import PcEngine.Proofs.Log.Record

namespace PcEngine.Log

variable {c : Category}

/-! ### The window in the first second -/

theorem isOld_of_lt {now : Moment} (h : now < second) (moment : Moment) :
    isOld now moment = false :=
  decide_eq_false (Nat.not_lt.mpr (Nat.le_trans (Nat.sub_le now moment) (Nat.le_of_lt h)))

/-- Nothing leaves the window. -/
theorem Window.size_expire_of_lt (w : Window) {now : Moment} (h : now < second) :
    (w.expire now).size = w.size := by
  have hkeep : w.toList.dropWhile (isOld now) = w.toList := by
    rcases w.toList with - | ⟨oldest, newer⟩
    · rfl
    · exact List.dropWhile_cons_of_neg (Bool.eq_false_iff.mp (isOld_of_lt h oldest))
  rw [size_eq_length, toList_expire, hkeep, ← size_eq_length]

/-! ### Credit -/

namespace Limiter

variable {l l' : Limiter} {now : Moment} {limit limit' : Nat} {v : Verdict}

/-- How many summaries a limiter can still give without a raise of the limit: the
first one, or the one that goes before the next message if that gets through. -/
def credit (l : Limiter) (limit : Nat) : Nat :=
  match l.reported with
  | none => 1
  | some _ => if 0 < l.dropped ∧ l.window.size < limit then 1 else 0

theorem credit_of_none (h : l.reported = none) : l.credit limit = 1 := by
  rw [credit, h]

theorem credit_of_some {last : Moment} (h : l.reported = some last) :
    l.credit limit = if 0 < l.dropped ∧ l.window.size < limit then 1 else 0 := by
  rw [credit, h]

theorem credit_le_one (l : Limiter) (limit : Nat) : l.credit limit ≤ 1 := by
  unfold credit
  split
  · exact Nat.le_refl 1
  · split <;> decide

/-- Only a raise of the limit brings credit. -/
theorem credit_mono (h : limit' ≤ limit) : l.credit limit' ≤ l.credit limit := by
  rcases hreported : l.reported with - | last
  · exact Nat.le_of_eq ((credit_of_none hreported).trans (credit_of_none hreported).symm)
  · rw [credit_of_some hreported, credit_of_some hreported]
    split
    · rename_i hroom
      exact Nat.le_of_eq (if_pos ⟨hroom.1, Nat.lt_of_lt_of_le hroom.2 h⟩).symm
    · exact Nat.zero_le _

/-- In the first second a drop is reported only if there has been no summary. -/
theorem reportDue_iff (h : now < second) : l.reportDue now = true ↔ l.reported = none := by
  rcases hreported : l.reported with - | last
  · simp only [reportDue, hreported]
  · have hearly : ¬second ≤ now - last :=
      Nat.not_le.mpr (Nat.lt_of_le_of_lt (Nat.sub_le now last) h)
    simp only [reportDue, hreported, decide_eq_true_eq, hearly, reduceCtorEq]

/-- A summary is paid for with credit. -/
theorem Judged.credit_le (h : l.Judged now limit v l') (hnow : now < second) :
    v.summary.toList.length + l'.credit limit ≤ l.credit limit := by
  cases h with
  | pass hroom hnone =>
    -- nothing is owed, with or without this message
    rcases hreported : l.reported with - | last
    · simp [credit, hreported]
    · simp [credit, hreported, hnone]
  | passAfterDrops hroom hdrops =>
    rw [Window.size_expire_of_lt _ hnow] at hroom
    rcases hreported : l.reported with - | last
    · simp [credit, hreported]
    · simp [credit, hreported, hdrops, hroom]
  | report hfull hdue =>
    have hreported := (reportDue_iff hnow).mp hdue
    simp [credit, hreported]
  | drop hfull hlater =>
    rcases hreported : l.reported with - | last
    · rw [(reportDue_iff hnow).mpr hreported] at hlater
      cases hlater
    · simp [credit, hreported, Nat.not_lt.mpr hfull]

end Limiter

namespace State

variable {s : State} {op : Op} {ops : List Op}

/-! ### Time and limit -/

/-- How long an operation takes. -/
def Op.span : Op → Nat
  | .wait span => span
  | _ => 0

/-- How long operations take. -/
def elapsed (ops : List Op) : Nat := (ops.map Op.span).sum

/-- The limits that an operation raises the limit to. -/
def raised (s : State) : Op → List Nat
  | .setLimit limit => if s.limit < limit then [limit] else []
  | _ => []

/-- The limits that the operations of a run raise the limit to. -/
def raisedIn (s : State) (ops : List Op) : List Nat :=
  collect (fun s op => (s.step op).2) raised s ops

theorem raisedIn_cons (s : State) (op : Op) (ops : List Op) :
    s.raisedIn (op :: ops) = s.raised op ++ (s.step op).2.raisedIn ops := rfl

theorem now_step (s : State) (op : Op) : (s.step op).2.now = s.now + op.span := by
  cases op with
  | record c l text => exact s.now_step_record c l text
  | _ => rfl

/-! ### The balance of credit -/

/-- What a category can still give without a raise. -/
def credit (s : State) (c : Category) : Nat := (s.limiter c).credit s.limit

/-- An operation that is no wanted message of the category keeps its limiter, and
brings credit only by a raise. -/
theorem credit_step_of_limiter (h : (s.step op).2.limiter c = s.limiter c) :
    (s.step op).2.credit c ≤ s.credit c + (s.raised op).length := by
  have hcredit : (s.step op).2.credit c = (s.limiter c).credit (s.step op).2.limit := by
    rw [credit, h]
  rw [hcredit]
  cases op with
  | setLimit limit =>
    show (s.limiter c).credit limit ≤ _
    rcases Nat.lt_or_ge s.limit limit with hraise | hlower
    · have hraised : (s.raised (.setLimit limit)).length = 1 := congrArg List.length (if_pos hraise)
      rw [hraised]
      exact Nat.le_trans ((s.limiter c).credit_le_one limit) (Nat.le_add_left 1 _)
    · exact Nat.le_trans (Limiter.credit_mono hlower) (Nat.le_add_right _ _)
  | record c' l text =>
    rw [limit_step_record]
    exact Nat.le_add_right _ _
  | _ => exact Nat.le_add_right _ _

theorem credit_step (s : State) (op : Op) (c : Category) (hnow : s.now < second) :
    (summaries c (s.step op).1).length + (s.step op).2.credit c ≤
      s.credit c + (s.raised op).length := by
  have houtcome := s.step_outcome op c
  generalize hlines : (s.step op).1 = lines at houtcome
  generalize hlimiter : (s.step op).2.limiter c = limiter at houtcome
  cases houtcome with
  | other _ _ hsummaries =>
    rw [hsummaries, List.length_nil, Nat.zero_add]
    exact credit_step_of_limiter hlimiter
  | @judged l text _ v _ _ _ hsummaries hjudged =>
    have hcredit : (s.step (.record c l text)).2.credit c = limiter.credit s.limit := by
      rw [credit, hlimiter, limit_step_record]
    rw [hsummaries, hcredit]
    exact Nat.le_trans (hjudged.credit_le hnow) (Nat.le_add_right _ _)

theorem credit_run (s : State) (ops : List Op) (c : Category)
    (hnow : s.now + elapsed ops < second) :
    (summaries c (s.run ops).1).length + (s.run ops).2.credit c ≤
      s.credit c + (s.raisedIn ops).length := by
  induction ops generalizing s with
  | nil => exact Nat.le_of_eq (Nat.zero_add _)
  | cons op ops ih =>
    have hspan : elapsed (op :: ops) = op.span + elapsed ops := List.sum_cons
    have hlater : (s.step op).2.now + elapsed ops < second := by
      rw [now_step, Nat.add_assoc, ← hspan]
      exact hnow
    have hrest := ih (s.step op).2 hlater
    have hstep := s.credit_step op c (Nat.lt_of_le_of_lt (Nat.le_add_right _ _) hnow)
    simp only [run_cons, raisedIn_cons, summaries_append, List.length_append]
    omega

/-! ### Stretches of the first second -/

theorem now_run (s : State) (ops : List Op) : (s.run ops).2.now = s.now + elapsed ops := by
  induction ops generalizing s with
  | nil => rfl
  | cons op ops ih =>
    have hspan : elapsed (op :: ops) = op.span + elapsed ops := List.sum_cons
    rw [run_cons, ih, now_step, hspan, Nat.add_assoc]

/-- **Every summary but the first takes a raise of the limit**: in any stretch of the
first second of a log, the summaries of a category are at most one more than the raises
of the limit. -/
theorem summaries_stretch (before after : List Op) (h : elapsed (before ++ after) < second)
    (c : Category) :
    (summaries c ((fresh.run before).2.run after).1).length ≤
      1 + ((fresh.run before).2.raisedIn after).length := by
  have hnow : (fresh.run before).2.now + elapsed after < second := by
    rw [elapsed, List.map_append, List.sum_append] at h
    rw [now_run]
    exact (Nat.zero_add _).symm ▸ h
  have hrun := credit_run _ after c hnow
  have hone : (fresh.run before).2.credit c ≤ 1 := Limiter.credit_le_one _ _
  omega

/-- Of two dropped messages the first is reported at once.  The second is reported at
the same instant, when the limit is raised and a message gets through. -/
def raisedAfterDrops : List Op :=
  [.setGlobalLevel .info, .setLimit 1, .record .bus .info "a", .record .bus .info "a",
    .record .bus .info "a", .setLimit 2, .record .bus .info "b"]

/-- With one raise there may be two summaries. -/
theorem summaries_stretch_raisedAfterDrops :
    elapsed raisedAfterDrops < second ∧
      (summaries .bus (fresh.run raisedAfterDrops).1).length ≤
        1 + (fresh.raisedIn raisedAfterDrops).length := by
  have h : elapsed raisedAfterDrops < second := by decide
  exact ⟨h, summaries_stretch [] raisedAfterDrops h .bus⟩

/-- And there are. -/
theorem summaries_raisedAfterDrops :
    elapsed raisedAfterDrops = 0 ∧
      summaries .bus (fresh.run raisedAfterDrops).1 = [1, 1] := by
  decide

end State

end PcEngine.Log
