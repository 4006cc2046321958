/-
PcEngine/Proofs/Log/Record.lean

What one operation of the log comes to for one category.

A limiter has four answers to a message, and `Judged` names them: it gets through,
with or without a summary of the messages dropped before it, or is dropped, with or
without a report.  An operation concerns a category only if it is a wanted message of
that category; then its limiter answers, and the lines of the answer are written.
Every other operation leaves the limiter of the category alone and writes nothing
about it (`step_outcome`).

The words of a message are asked for when the message gets through, then once, and
are written (`recordM_cases`).
-/
import Mathlib.Algebra.Order.Ring.Nat
import PcEngine.Log.State
import PcEngine.Proofs.History

namespace PcEngine.Log

/-! ### Lines of a category -/

/-- The text of a line that is a message of a category. -/
def Line.message? (c : Category) : Line → Option String
  | .message c' text => if c' = c then some text else none
  | .dropped .. => none

/-- The count of a line that is a summary of a category. -/
def Line.summary? (c : Category) : Line → Option Nat
  | .message .. => none
  | .dropped c' count => if c' = c then some count else none

/-- The messages of a category among some lines. -/
def messages (c : Category) (lines : List Line) : List String := lines.filterMap (Line.message? c)

/-- The counts of the summaries of a category among some lines. -/
def summaries (c : Category) (lines : List Line) : List Nat := lines.filterMap (Line.summary? c)

variable {c c' : Category} {lines lines' : List Line}

@[simp] theorem messages_append :
    messages c (lines ++ lines') = messages c lines ++ messages c lines' :=
  List.filterMap_append

@[simp] theorem summaries_append :
    summaries c (lines ++ lines') = summaries c lines ++ summaries c lines' :=
  List.filterMap_append

@[simp] theorem messages_message (c c' : Category) (text : String) :
    messages c [.message c' text] = if c' = c then [text] else [] := by
  by_cases h : c' = c <;> simp [messages, Line.message?, h]

@[simp] theorem summaries_message (c c' : Category) (text : String) :
    summaries c [.message c' text] = [] := rfl

@[simp] theorem messages_summaryLines (c c' : Category) (v : Verdict) :
    messages c (State.summaryLines c' v) = [] := by
  unfold State.summaryLines
  split <;> rfl

/-- A summary that counts something is written as it is. -/
theorem summaries_summaryLines (c c' : Category) {v : Verdict} (h : ∀ n ∈ v.summary, 0 < n) :
    summaries c (State.summaryLines c' v) = if c' = c then v.summary.toList else [] := by
  rcases hv : v.summary with - | n
  · rw [State.summaryLines, hv]
    exact (ite_self _).symm
  · have hpos : decide (0 < n) = true := decide_eq_true (h n hv)
    rw [State.summaryLines, hv, Option.filter_some, if_pos hpos]
    by_cases hc : c' = c <;> simp [summaries, Line.summary?, hc]

/-! ### The answers of a limiter -/

namespace Limiter

/-- What a limiter may answer to a message, and what it is then.

* `pass`, `passAfterDrops` — there is room, and the message gets through; if messages
  have been dropped since the last summary, a summary goes before it;
* `report`, `drop` — there is no room, and the message is dropped; it is reported if
  that is due. -/
inductive Judged (l : Limiter) (now : Moment) (limit : Nat) : Verdict → Limiter → Prop
  | pass (hroom : (l.window.expire now).size < limit) (hnone : l.dropped = 0) :
      Judged l now limit ⟨true, none⟩ { l with window := (l.window.expire now).push now }
  | passAfterDrops (hroom : (l.window.expire now).size < limit) (hdrops : 0 < l.dropped) :
      Judged l now limit ⟨true, some l.dropped⟩ ⟨(l.window.expire now).push now, 0, some now⟩
  | report (hfull : limit ≤ (l.window.expire now).size) (hdue : l.reportDue now = true) :
      Judged l now limit ⟨false, some (l.dropped + 1)⟩ ⟨l.window.expire now, 0, some now⟩
  | drop (hfull : limit ≤ (l.window.expire now).size) (hlater : l.reportDue now = false) :
      Judged l now limit ⟨false, none⟩
        { l with window := l.window.expire now, dropped := l.dropped + 1 }

theorem judge_judged (l : Limiter) (now : Moment) (limit : Nat) :
    l.Judged now limit (l.judge now limit).1 (l.judge now limit).2 := by
  unfold judge
  dsimp only
  split
  · rename_i hroom
    split
    · rename_i hnone
      exact .pass hroom hnone
    · rename_i hdrops
      exact .passAfterDrops hroom (Nat.pos_of_ne_zero hdrops)
  · rename_i hfull
    split
    · rename_i hdue
      exact .report (Nat.le_of_not_lt hfull) hdue
    · rename_i hlater
      exact .drop (Nat.le_of_not_lt hfull) (Bool.not_eq_true _ ▸ hlater)

variable {l l' : Limiter} {now : Moment} {limit : Nat} {v : Verdict}

/-- A summary counts something. -/
theorem Judged.summary_pos (h : l.Judged now limit v l') : ∀ n ∈ v.summary, 0 < n := by
  intro n hn
  cases h with
  | pass | drop => cases hn
  | passAfterDrops _ hdrops => exact Option.some.inj hn ▸ hdrops
  | report => exact Option.some.inj hn ▸ Nat.succ_pos _

end Limiter

namespace State

variable {s : State} {l : Level}

/-! ### One limiter per category -/

theorem index_eq_iff : c.index = c'.index ↔ c = c' := by
  cases c <;> cases c' <;> decide

theorem limiter_setLimiter (s : State) (c c' : Category) (limiter : Limiter) :
    (s.setLimiter c limiter).limiter c' = if c = c' then limiter else s.limiter c' := by
  simp only [setLimiter, State.limiter, Fin.getElem_fin, Vector.getElem_set, Fin.val_inj,
    index_eq_iff]

/-! ### Recording -/

/-- A message that is not wanted changes nothing, and its words are not asked for. -/
theorem recordM_of_not_wants {μ : Type → Type} [Monad μ] (h : s.wants c l = false)
    (text : Unit → μ String) : s.recordM c l text = pure ([], s) := by
  rw [recordM, if_neg (Bool.eq_false_iff.mp h)]

/-- A wanted message is up to the limiter: it is dropped, and its words are not asked
for, or it gets through and its words are asked for and written. -/
theorem recordM_of_wants {μ : Type → Type} [Monad μ] (h : s.wants c l = true)
    (text : Unit → μ String) :
    ∃ v limiter, (s.limiter c).Judged s.now s.limit v limiter ∧
      s.recordM c l text =
        if v.passes then do
          let words ← text ()
          pure (summaryLines c v ++ [.message c words], s.setLimiter c limiter)
        else pure (summaryLines c v, s.setLimiter c limiter) := by
  refine ⟨_, _, (s.limiter c).judge_judged s.now s.limit, ?_⟩
  rw [recordM, if_pos h]

/-- The words of a message are asked for once and written, or are not asked for and
there is no message. -/
theorem recordM_cases {μ : Type → Type} [Monad μ] (s : State) (c : Category) (l : Level)
    (text : Unit → μ String) :
    (∃ lines s', (∀ c', messages c' lines = []) ∧ s.recordM c l text = pure (lines, s')) ∨
      ∃ lines s', (∀ c', messages c' lines = []) ∧
        s.recordM c l text =
          text () >>= fun words => pure (lines ++ [.message c words], s') := by
  rcases hwants : s.wants c l with - | -
  · exact .inl ⟨[], s, fun _ => rfl, recordM_of_not_wants hwants text⟩
  · obtain ⟨v, limiter, -, heq⟩ := recordM_of_wants hwants text
    have hlines : ∀ c', messages c' (summaryLines c v) = [] := fun c' =>
      messages_summaryLines c' c v
    rcases hpasses : v.passes with - | -
    · exact .inl ⟨_, _, hlines, by rw [heq, hpasses, if_neg Bool.false_ne_true]⟩
    · exact .inr ⟨_, _, hlines, by rw [heq, hpasses, if_pos rfl]⟩

theorem step_record_of_not_wants (h : s.wants c l = false) (text : String) :
    s.step (.record c l text) = ([], s) :=
  recordM_of_not_wants (μ := Id) h fun _ => pure text

theorem step_record_of_wants (h : s.wants c l = true) (text : String) :
    ∃ v limiter, (s.limiter c).Judged s.now s.limit v limiter ∧
      s.step (.record c l text) =
        (summaryLines c v ++ if v.passes then [.message c text] else [],
          s.setLimiter c limiter) := by
  obtain ⟨v, limiter, hjudged, heq⟩ := recordM_of_wants (μ := Id) h fun _ => pure text
  refine ⟨v, limiter, hjudged, ?_⟩
  rw [step, record, heq]
  rcases v.passes with - | -
  · rw [if_neg Bool.false_ne_true, if_neg Bool.false_ne_true, List.append_nil]
    rfl
  · rfl

/-- Recording changes nothing but a limiter. -/
theorem step_record (s : State) (c : Category) (l : Level) (text : String) :
    (s.step (.record c l text)).2 = s ∨
      ∃ limiter, (s.step (.record c l text)).2 = s.setLimiter c limiter := by
  rcases hwants : s.wants c l with - | -
  · exact .inl (congrArg Prod.snd (step_record_of_not_wants hwants text))
  · obtain ⟨v, limiter, -, heq⟩ := step_record_of_wants hwants text
    exact .inr ⟨limiter, congrArg Prod.snd heq⟩

theorem now_step_record (s : State) (c : Category) (l : Level) (text : String) :
    (s.step (.record c l text)).2.now = s.now := by
  rcases s.step_record c l text with h | ⟨limiter, h⟩ <;> rw [h]
  rfl

theorem limit_step_record (s : State) (c : Category) (l : Level) (text : String) :
    (s.step (.record c l text)).2.limit = s.limit := by
  rcases s.step_record c l text with h | ⟨limiter, h⟩ <;> rw [h]
  rfl

/-! ### Operations -/

/-- The wanted messages of a category among what an operation records. -/
def wanted (c : Category) (s : State) : Op → List String
  | .record c' l text => if c' = c ∧ s.wants c' l = true then [text] else []
  | _ => []

/-- The wanted messages of a category among what operations record. -/
def wantedIn (c : Category) (s : State) (ops : List Op) : List String :=
  collect (fun s op => (s.step op).2) (wanted c) s ops

theorem wantedIn_cons (s : State) (op : Op) (ops : List Op) :
    s.wantedIn c (op :: ops) = s.wanted c op ++ (s.step op).2.wantedIn c ops := rfl

theorem run_cons (s : State) (op : Op) (ops : List Op) :
    s.run (op :: ops) = ((s.step op).1 ++ ((s.step op).2.run ops).1, ((s.step op).2.run ops).2) :=
  rfl

/-- What an operation comes to for a category: the lines about it, and its limiter
after the operation.

* `other` — nothing, as the operation is no wanted message of the category;
* `judged` — it is one, and the limiter answers it. -/
inductive Outcome (s : State) (c : Category) : Op → List Line → Limiter → Prop
  | other {op lines} (hwanted : s.wanted c op = []) (hmessages : messages c lines = [])
      (hsummaries : summaries c lines = []) : Outcome s c op lines (s.limiter c)
  | judged {l text lines v limiter} (hwanted : s.wanted c (.record c l text) = [text])
      (hmessages : messages c lines = if v.passes then [text] else [])
      (hsummaries : summaries c lines = v.summary.toList)
      (hjudged : (s.limiter c).Judged s.now s.limit v limiter) :
      Outcome s c (.record c l text) lines limiter

/-- **An operation concerns one category at most**, and that one by the answer of its
limiter. -/
theorem step_outcome (s : State) (op : Op) (c : Category) :
    s.Outcome c op (s.step op).1 ((s.step op).2.limiter c) := by
  cases op with
  | record c' l text =>
    rcases hwants : s.wants c' l with - | -
    · rw [step_record_of_not_wants hwants text]
      exact .other (if_neg fun h => Bool.false_ne_true (hwants.symm.trans h.2)) rfl rfl
    · obtain ⟨v, limiter, hjudged, heq⟩ := step_record_of_wants hwants text
      have hsummaries := summaries_summaryLines c c' hjudged.summary_pos
      rw [heq, limiter_setLimiter]
      by_cases hc : c' = c
      · subst hc
        rw [if_pos rfl]
        refine .judged (if_pos ⟨rfl, hwants⟩) ?_ ?_ hjudged
        · split <;> simp
        · split <;> simp [hsummaries]
      · rw [if_neg hc]
        refine .other (if_neg fun h => hc h.1) ?_ ?_
        · split <;> simp [hc]
        · split <;> simp [hsummaries, hc]
  | _ => exact .other rfl rfl rfl

end State

end PcEngine.Log
