/-
PcEngine/Proofs/Log/Conservation.lean

No message of the log is lost without being counted.

A wanted message is written or dropped, and a dropped one is counted by its limiter
until a summary gives the count.  So at any time the wanted messages of a category are
as many as those written, those in summaries and those still counted together.  The
limit and the levels may change on the way, and time may pass: the balance is that of a
single answer of a limiter (`Limiter.Judged.balance`), and no other operation touches
it.

Main result: the balance holds after every run from a fresh log, no summary counts
nothing, and the words of a message that are asked for are written
(`messages_conserved`).
-/
import PcEngine.Proofs.Log.Record

namespace PcEngine.Log

variable {c : Category}

/-- One message more is written, in a summary or counted. -/
theorem Limiter.Judged.balance {l l' : Limiter} {now : Moment} {limit : Nat} {v : Verdict}
    (h : l.Judged now limit v l') :
    1 + l.dropped = (if v.passes then 1 else 0) + v.summary.toList.sum + l'.dropped := by
  cases h with
  | pass | passAfterDrops | report | drop => simp [*, Nat.add_comm]

namespace State

variable {s : State} {op : Op} {lines : List Line} {limiter : Limiter}

/-! ### One operation -/

theorem Outcome.balance (h : s.Outcome c op lines limiter) :
    (s.wanted c op).length + (s.limiter c).dropped =
      (messages c lines).length + (summaries c lines).sum + limiter.dropped := by
  cases h with
  | other hwanted hmessages hsummaries =>
    rw [hwanted, hmessages, hsummaries]
    rfl
  | @judged l text lines v limiter hwanted hmessages hsummaries hjudged =>
    have hlength : (messages c lines).length = if v.passes then 1 else 0 := by
      rw [hmessages]
      split <;> rfl
    rw [hwanted, hsummaries, hlength]
    exact hjudged.balance

theorem Outcome.summaries_pos (h : s.Outcome c op lines limiter) :
    ∀ n ∈ summaries c lines, 0 < n := by
  intro n hn
  cases h with
  | other _ _ hsummaries => simp [hsummaries] at hn
  | judged _ _ hsummaries hjudged =>
    rw [hsummaries, Option.mem_toList] at hn
    exact hjudged.summary_pos n hn

/-- What is written is what was wanted, if anything is. -/
theorem Outcome.messages_sublist (h : s.Outcome c op lines limiter) :
    (messages c lines).Sublist (s.wanted c op) := by
  cases h with
  | other _ hmessages =>
    rw [hmessages]
    exact List.nil_sublist _
  | judged hwanted hmessages =>
    rw [hmessages, hwanted]
    split
    · exact List.Sublist.refl _
    · exact List.nil_sublist _

/-! ### Runs -/

/-- Along a run, every wanted message is written, in a summary or counted. -/
theorem balance_run (s : State) (ops : List Op) (c : Category) :
    (s.wantedIn c ops).length + (s.limiter c).dropped =
      (messages c (s.run ops).1).length + (summaries c (s.run ops).1).sum +
        ((s.run ops).2.limiter c).dropped := by
  induction ops generalizing s with
  | nil => rfl
  | cons op ops ih =>
    have hstep := (s.step_outcome op c).balance
    have hrest := ih (s.step op).2
    simp only [wantedIn_cons, run_cons, messages_append, summaries_append, List.length_append,
      List.sum_append]
    omega

theorem summaries_pos_run (s : State) (ops : List Op) (c : Category) :
    ∀ n ∈ summaries c (s.run ops).1, 0 < n := by
  induction ops generalizing s with
  | nil => exact fun n hn => absurd hn List.not_mem_nil
  | cons op ops ih =>
    intro n hn
    rw [run_cons, summaries_append, List.mem_append] at hn
    exact hn.elim ((s.step_outcome op c).summaries_pos n) (ih (s.step op).2 n)

/-- The messages written are wanted ones, in their order. -/
theorem messages_sublist_run (s : State) (ops : List Op) (c : Category) :
    (messages c (s.run ops).1).Sublist (s.wantedIn c ops) := by
  induction ops generalizing s with
  | nil => exact List.Sublist.refl _
  | cons op ops ih =>
    rw [run_cons, messages_append, wantedIn_cons]
    exact (s.step_outcome op c).messages_sublist.append (ih (s.step op).2)

/-- **Messages are conserved**: whatever is done to a fresh log, the messages of a
category that are written are wanted ones, and those that are not written are in
summaries or still counted by its limiter.  A summary never counts nothing.  And the
words of a message come from a computation that is left alone when the message is
dropped, or carried out once to write the message. -/
theorem messages_conserved :
    (∀ ops c,
      (messages c (fresh.run ops).1).Sublist (fresh.wantedIn c ops) ∧
        (fresh.wantedIn c ops).length =
          (messages c (fresh.run ops).1).length + (summaries c (fresh.run ops).1).sum +
            ((fresh.run ops).2.limiter c).dropped ∧
        ∀ n ∈ summaries c (fresh.run ops).1, 1 ≤ n) ∧
    ∀ (μ : Type → Type) [Monad μ] (s : State) (c : Category) (l : Level) (text : Unit → μ String),
      (∃ lines s', (∀ c', messages c' lines = []) ∧ s.recordM c l text = pure (lines, s')) ∨
        ∃ lines s', (∀ c', messages c' lines = []) ∧
          s.recordM c l text =
            text () >>= fun words => pure (lines ++ [.message c words], s') := by
  refine ⟨fun ops c => ⟨messages_sublist_run fresh ops c, ?_, summaries_pos_run fresh ops c⟩,
    fun μ _ => recordM_cases⟩
  have hnone : (fresh.limiter c).dropped = 0 := by
    cases c <;> rfl
  rw [← balance_run fresh ops c, hnone]
  rfl

end State

end PcEngine.Log
