/-
PcEngine/Proofs/Log/FixedLimit.lean

Which messages get through at one instant under one limit.

As nothing becomes old at one instant, a limiter can be told by how many messages it has
answered (`Limiter.Answered`): the window holds as many of them as the limit allows, the
one after those has been reported, and the ones after that are counted.  So its next
answer depends on that number alone (`Judged.answered`).

How many a limiter has answered is the number of wanted messages of its category, and
nothing else that is recorded counts (`answered_run`).  From this come the lines of the
category, what becomes of its next message, and that both are as they would be without
all other messages.

Main result: the first messages of each category get through, as many as the limit
says; the one after them is reported, and no other line is written about the category
(`passesFirst_run`).
-/
import Mathlib.Data.List.Basic
import PcEngine.Proofs.Log.Record

namespace PcEngine.Log

variable {c : Category} {lines : List Line}

/-! ### Lines of a category, in order -/

/-- The category that a line is about. -/
def Line.category : Line → Category
  | .message c _ | .dropped c _ => c

/-- The lines about a category among some lines. -/
def linesOf (c : Category) (lines : List Line) : List Line := lines.filter (·.category = c)

theorem linesOf_append (lines lines' : List Line) :
    linesOf c (lines ++ lines') = linesOf c lines ++ linesOf c lines' :=
  List.filter_append lines lines'

/-- Without a summary, the lines of a category are its messages. -/
theorem linesOf_of_summaries_nil (h : summaries c lines = []) :
    linesOf c lines = (messages c lines).map (.message c) := by
  rw [summaries, List.filterMap_eq_nil_iff] at h
  rw [linesOf, messages, List.map_filterMap, ← List.filterMap_eq_filter]
  refine List.filterMap_congr fun line hline => ?_
  have hnone := h line hline
  cases line with
  | message c' text =>
    by_cases hc : c' = c <;> simp [Line.category, Line.message?, Option.guard, hc]
  | dropped c' count =>
    have hc : c' ≠ c := by simpa [Line.summary?] using hnone
    simp [Line.category, Line.message?, Option.guard, hc]

/-- Without a message, they are its summaries. -/
theorem linesOf_of_messages_nil (h : messages c lines = []) :
    linesOf c lines = (summaries c lines).map (.dropped c) := by
  rw [messages, List.filterMap_eq_nil_iff] at h
  rw [linesOf, summaries, List.map_filterMap, ← List.filterMap_eq_filter]
  refine List.filterMap_congr fun line hline => ?_
  have hnone := h line hline
  cases line with
  | message c' text =>
    have hc : c' ≠ c := by simpa [Line.message?] using hnone
    simp [Line.category, Line.summary?, Option.guard, hc]
  | dropped c' count =>
    by_cases hc : c' = c <;> simp [Line.category, Line.summary?, Option.guard, hc]

/-! ### The answers at one instant -/

namespace Limiter

/-- What a limiter is that has answered `k` messages, all of them at one instant under
one limit. -/
structure Answered (l : Limiter) (now : Moment) (limit k : Nat) : Prop where
  window : l.window.toList = .replicate (min k limit) now
  dropped : l.dropped = k - (limit + 1)
  reported : l.reported = if limit < k then some now else none

/-- The answer after `k` answers. -/
def verdictAt (limit k : Nat) : Verdict := ⟨k < limit, if k = limit then some 1 else none⟩

variable {l l' : Limiter} {now : Moment} {limit k : Nat} {v : Verdict}

theorem verdictAt_of_lt (h : k < limit) : verdictAt limit k = ⟨true, none⟩ := by
  rw [verdictAt, decide_eq_true h, if_neg h.ne]

theorem verdictAt_self (limit : Nat) : verdictAt limit limit = ⟨false, some 1⟩ := by
  rw [verdictAt, decide_eq_false (Nat.lt_irrefl limit), if_pos rfl]

theorem verdictAt_of_gt (h : limit < k) : verdictAt limit k = ⟨false, none⟩ := by
  rw [verdictAt, decide_eq_false h.not_gt, if_neg h.ne']

theorem answered_fresh (now : Moment) (limit : Nat) : fresh.Answered now limit 0 := by
  refine ⟨?_, (Nat.zero_sub _).symm, (if_neg (Nat.not_lt_zero limit)).symm⟩
  rw [Nat.zero_min]
  rfl

/-- Nothing has become old. -/
theorem Answered.toList_expire (h : l.Answered now limit k) :
    (l.window.expire now).toList = .replicate (min k limit) now := by
  have hyoung : isOld now now = false := by
    rw [isOld, Nat.sub_self]
    rfl
  rw [Window.toList_expire, h.window, List.dropWhile_replicate, hyoung,
    if_neg Bool.false_ne_true]

theorem Answered.size_expire (h : l.Answered now limit k) :
    (l.window.expire now).size = min k limit := by
  rw [Window.size_eq_length, h.toList_expire, List.length_replicate]

/-- A drop is reported if none has been. -/
theorem Answered.reportDue_iff (h : l.Answered now limit k) :
    l.reportDue now = true ↔ k ≤ limit := by
  rw [reportDue, h.reported]
  rcases Nat.lt_or_ge limit k with hk | hk
  · have hearly : ¬second ≤ now - now := Nat.sub_self now ▸ Nat.not_le.mpr (by decide)
    rw [if_pos hk]
    exact iff_of_false (mt of_decide_eq_true hearly) (Nat.not_le.mpr hk)
  · rw [if_neg (Nat.not_lt.mpr hk)]
    exact iff_of_true rfl hk

/-- **The next answer depends on how many there have been.** -/
theorem Judged.answered (hjudged : l.Judged now limit v l') (h : l.Answered now limit k) :
    v = verdictAt limit k ∧ l'.Answered now limit (k + 1) := by
  have hsize := h.size_expire
  have hdropped := h.dropped
  cases hjudged with
  | pass hroom hnone =>
    have hk : k < limit := by omega
    refine ⟨(verdictAt_of_lt hk).symm, ?_, ?_, ?_⟩
    · have hmin : min (k + 1) limit = min k limit + 1 := by omega
      rw [Window.toList_push, h.toList_expire, hmin, List.replicate_succ']
    · show l.dropped = _
      omega
    · show l.reported = _
      rw [h.reported, if_neg (by omega), if_neg (by omega)]
  | passAfterDrops hroom hdrops => omega
  | report hfull hdue =>
    have hlast : k ≤ limit := h.reportDue_iff.mp hdue
    obtain rfl : k = limit := by omega
    have hone : l.dropped + 1 = 1 := by omega
    refine ⟨by rw [hone, verdictAt_self], ?_, (Nat.sub_self (k + 1)).symm, ?_⟩
    · rw [h.toList_expire, Nat.min_self, Nat.min_eq_right (Nat.le_succ k)]
    · rw [if_pos (Nat.lt_succ_self k)]
  | drop hfull hlater =>
    have hmore : limit < k := by
      rw [← Nat.not_le, ← h.reportDue_iff, hlater]
      exact Bool.false_ne_true
    refine ⟨(verdictAt_of_gt hmore).symm, ?_, ?_, ?_⟩
    · have hmin : min (k + 1) limit = min k limit := by omega
      rw [h.toList_expire, hmin]
    · show l.dropped + 1 = _
      omega
    · show l.reported = _
      rw [h.reported, if_pos hmore, if_pos (Nat.lt_succ_of_lt hmore)]

end Limiter

namespace State

variable {s r : State} {op : Op} {ops : List Op} {now : Moment} {limit : Nat}

/-! ### Runs at one instant -/

/-- An operation that takes no time and leaves the limit alone. -/
def Op.AtOnce : Op → Prop
  | .setLimit _ | .wait _ => False
  | _ => True

instance : DecidablePred Op.AtOnce
  | .setLimit _ | .wait _ => isFalse id
  | .record .. | .setLevel .. | .setGlobalLevel _ | .silence => isTrue trivial

/-- A log that nothing has been recorded in, at a moment and with a limit. -/
def limited (now : Moment) (limit : Nat) : State := (fresh.wait now).setLimit limit

theorem run_concat (s : State) (ops : List Op) (op : Op) :
    s.run (ops ++ [op]) =
      ((s.run ops).1 ++ ((s.run ops).2.step op).1, ((s.run ops).2.step op).2) := by
  induction ops generalizing s with
  | nil => rw [List.nil_append, run_cons, run, run, List.append_nil, List.nil_append]
  | cons first ops ih => rw [List.cons_append, run_cons, run_cons, ih, List.append_assoc]

theorem wantedIn_concat (s : State) (ops : List Op) (op : Op) (c : Category) :
    s.wantedIn c (ops ++ [op]) = s.wantedIn c ops ++ (s.run ops).2.wanted c op := by
  induction ops generalizing s with
  | nil => exact List.append_nil _
  | cons first ops ih =>
    rw [List.cons_append, wantedIn_cons, wantedIn_cons, run_cons, ih, List.append_assoc]

/-- A log at a moment and with a limit whose limiter of a category has answered `k`
messages, all of them at that moment and under that limit. -/
structure Stands (s : State) (now : Moment) (limit : Nat) (c : Category) (k : Nat) : Prop where
  time : s.now = now
  rate : s.limit = limit
  answered : (s.limiter c).Answered now limit k

theorem stands_limited (now : Moment) (limit : Nat) (c : Category) :
    (limited now limit).Stands now limit c 0 := by
  have hfresh : (limited now limit).limiter c = .fresh := by
    cases c <;> rfl
  exact ⟨Nat.zero_add now, rfl, hfresh ▸ Limiter.answered_fresh now limit⟩

/-- An operation takes a category further by its wanted messages. -/
theorem Stands.step {k : Nat} (h : s.Stands now limit c k) (honce : op.AtOnce) :
    (s.step op).2.Stands now limit c (k + (s.wanted c op).length) := by
  obtain ⟨rfl, rfl, hanswered⟩ := h
  have hlimiter : ((s.step op).2.limiter c).Answered s.now s.limit
      (k + (s.wanted c op).length) := by
    have houtcome := s.step_outcome op c
    generalize (s.step op).1 = lines at houtcome
    generalize (s.step op).2.limiter c = limiter at houtcome ⊢
    cases houtcome with
    | other hwanted => exact hwanted ▸ hanswered
    | judged hwanted _ _ hjudged => exact hwanted ▸ (hjudged.answered hanswered).2
  cases op with
  | record c' l text =>
    exact ⟨s.now_step_record c' l text, s.limit_step_record c' l text, hlimiter⟩
  | setLimit | wait => exact honce.elim
  | _ => exact ⟨rfl, rfl, hlimiter⟩

/-- A run takes a category further by its wanted messages. -/
theorem Stands.run {k : Nat} (h : s.Stands now limit c k) (honce : ∀ op ∈ ops, op.AtOnce) :
    (s.run ops).2.Stands now limit c (k + (s.wantedIn c ops).length) := by
  induction ops generalizing s k with
  | nil => exact h
  | cons op ops ih =>
    have hstep := h.step (honce op List.mem_cons_self)
    have hrun := ih hstep fun op' hop => honce op' (List.mem_cons_of_mem op hop)
    rw [Nat.add_assoc, ← List.length_append, ← wantedIn_cons] at hrun
    exact hrun

/-! ### The lines of a category -/

/-- What a wanted message comes to after `k` others: it is written, or reported, or only
counted. -/
def linesAt (c : Category) (limit k : Nat) (text : String) : List Line :=
  if k < limit then [.message c text] else if k = limit then [.dropped c 1] else []

/-- The messages that get through, and the report of the one after them. -/
def firstLines (c : Category) (limit : Nat) (texts : List String) : List Line :=
  (texts.take limit).map (.message c) ++ if limit < texts.length then [.dropped c 1] else []

theorem firstLines_nil (c : Category) (limit : Nat) : firstLines c limit [] = [] := by
  rw [firstLines, List.take_nil, List.length_nil, if_neg (Nat.not_lt_zero limit)]
  rfl

theorem firstLines_concat (c : Category) (limit : Nat) (texts : List String) (text : String) :
    firstLines c limit (texts ++ [text]) =
      firstLines c limit texts ++ linesAt c limit texts.length text := by
  have hlength : (texts ++ [text]).length = texts.length + 1 := List.length_append
  rw [firstLines, firstLines, linesAt, hlength]
  rcases Nat.lt_trichotomy texts.length limit with hroom | rfl | hfull
  · rw [List.take_of_length_le (hlength.trans_le hroom), List.take_of_length_le hroom.le,
      List.map_append, if_neg (Nat.not_lt.mpr hroom), if_neg hroom.not_gt, if_pos hroom,
      List.append_nil, List.append_nil]
    rfl
  · rw [List.take_left, List.take_length, if_pos (Nat.lt_succ_self _), if_neg (Nat.lt_irrefl _),
      if_neg (Nat.lt_irrefl _), if_pos rfl, List.append_nil]
  · rw [List.take_append_of_le_length hfull.le, if_pos (Nat.lt_succ_of_lt hfull), if_pos hfull,
      if_neg hfull.not_gt, if_neg hfull.ne', List.append_nil]

/-- An operation has one wanted message of a category at most. -/
theorem wanted_cases (s : State) (op : Op) (c : Category) :
    s.wanted c op = [] ∨ ∃ text, s.wanted c op = [text] := by
  cases op with
  | record c' l text =>
    by_cases h : c' = c ∧ s.wants c' l = true
    · exact .inr ⟨text, if_pos h⟩
    · exact .inl (if_neg h)
  | _ => exact .inl rfl

/-- What an operation writes about a category. -/
theorem Stands.linesOf_step {k : Nat} (h : s.Stands now limit c k) (op : Op) :
    linesOf c (s.step op).1 = (s.wanted c op).flatMap (linesAt c limit k) := by
  obtain ⟨rfl, rfl, hanswered⟩ := h
  have houtcome := s.step_outcome op c
  generalize (s.step op).1 = lines at houtcome ⊢
  generalize (s.step op).2.limiter c = limiter at houtcome
  cases houtcome with
  | other hwanted hmessages hsummaries =>
    rw [hwanted, linesOf_of_summaries_nil hsummaries, hmessages]
    rfl
  | @judged l text _ v _ hwanted hmessages hsummaries hjudged =>
    obtain ⟨rfl, -⟩ := hjudged.answered hanswered
    rw [hwanted, List.flatMap_singleton, linesAt]
    rcases Nat.lt_trichotomy k s.limit with hroom | rfl | hfull
    · rw [Limiter.verdictAt_of_lt hroom] at hmessages hsummaries
      rw [linesOf_of_summaries_nil hsummaries, hmessages, if_pos hroom]
      rfl
    · rw [Limiter.verdictAt_self] at hmessages hsummaries
      rw [linesOf_of_messages_nil hmessages, hsummaries, if_neg (Nat.lt_irrefl _), if_pos rfl]
      rfl
    · rw [Limiter.verdictAt_of_gt hfull] at hmessages hsummaries
      rw [linesOf_of_messages_nil hmessages, hsummaries, if_neg hfull.not_gt, if_neg hfull.ne']
      rfl

/-- What a run writes about a category. -/
theorem linesOf_run (now : Moment) (limit : Nat) (c : Category)
    (honce : ∀ op ∈ ops, op.AtOnce) :
    linesOf c ((limited now limit).run ops).1 =
      firstLines c limit ((limited now limit).wantedIn c ops) := by
  -- from the end, as an answer depends on how many came before it
  induction ops using List.reverseRecOn with
  | nil => exact (firstLines_nil c limit).symm
  | append_singleton ops op ih =>
    have hbefore : ∀ op ∈ ops, op.AtOnce := fun op' hop => honce op' (List.mem_append_left _ hop)
    have hstands := (stands_limited now limit c).run hbefore
    rw [Nat.zero_add] at hstands
    rw [run_concat, wantedIn_concat, linesOf_append, ih hbefore, hstands.linesOf_step]
    rcases wanted_cases ((limited now limit).run ops).2 op c with hnone | ⟨text, hone⟩
    · rw [hnone, List.append_nil, List.flatMap_nil, List.append_nil]
    · rw [hone, List.flatMap_singleton, firstLines_concat]

/-! ### The next message -/

/-- A message that is wanted next is written, reported or only counted; its words are
asked for if it is written. -/
theorem Stands.recordM_of_wants {k : Nat} (h : s.Stands now limit c k) {l : Level}
    (hwants : s.wants c l = true) {μ : Type → Type} [Monad μ] (text : Unit → μ String) :
    ∃ limiter, s.recordM c l text =
      if k < limit then do
        let words ← text ()
        pure ([.message c words], s.setLimiter c limiter)
      else pure (if k = limit then [.dropped c 1] else [], s.setLimiter c limiter) := by
  obtain ⟨rfl, rfl, hanswered⟩ := h
  obtain ⟨v, limiter, hjudged, heq⟩ := State.recordM_of_wants hwants text
  obtain ⟨rfl, -⟩ := hjudged.answered hanswered
  refine ⟨limiter, heq.trans ?_⟩
  rcases Nat.lt_trichotomy k s.limit with hroom | rfl | hfull
  · rw [Limiter.verdictAt_of_lt hroom, if_pos rfl, if_pos hroom]
    rfl
  · rw [Limiter.verdictAt_self, if_neg Bool.false_ne_true, if_neg (Nat.lt_irrefl _), if_pos rfl]
    rfl
  · rw [Limiter.verdictAt_of_gt hfull, if_neg Bool.false_ne_true, if_neg hfull.not_gt,
      if_neg hfull.ne']
    rfl

/-! ### Without other messages -/

/-- An operation, unless it records a message of another category or one that is not
wanted. -/
def kept (c : Category) (s : State) : Op → List Op
  | .record c' l text => if c' = c ∧ s.wants c' l = true then [.record c' l text] else []
  | op => [op]

/-- The operations of a run without the messages of other categories and those that are
not wanted. -/
def keptOf (c : Category) (s : State) (ops : List Op) : List Op :=
  collect (fun s op => (s.step op).2) (kept c) s ops

theorem keptOf_cons (s : State) (op : Op) (ops : List Op) :
    s.keptOf c (op :: ops) = s.kept c op ++ (s.step op).2.keptOf c ops := rfl

/-- An operation is kept as it is, or is a message that does not concern the category. -/
theorem kept_cases (s : State) (op : Op) (c : Category) :
    s.kept c op = [op] ∨
      s.kept c op = [] ∧ s.wanted c op = [] ∧ ∃ c' l text, op = .record c' l text := by
  cases op with
  | record c' l text =>
    by_cases h : c' = c ∧ s.wants c' l = true
    · exact .inl (if_pos h)
    · exact .inr ⟨if_neg h, if_neg h, c', l, text, rfl⟩
  | _ => exact .inl rfl

theorem keptOf_sublist (s : State) (ops : List Op) (c : Category) :
    (s.keptOf c ops).Sublist ops := by
  induction ops generalizing s with
  | nil => exact List.nil_sublist _
  | cons op ops ih =>
    rw [keptOf_cons]
    rcases s.kept_cases op c with h | ⟨h, -⟩
    · rw [h]
      exact (ih _).cons_cons op
    · rw [h]
      exact (ih _).cons op

/-- Two logs with the same levels, which want the same messages. -/
def SameLevels (s r : State) : Prop := s.globalLevel = r.globalLevel ∧ s.levels = r.levels

theorem SameLevels.wants_eq (h : s.SameLevels r) (c : Category) (l : Level) :
    s.wants c l = r.wants c l := by
  rw [wants, wants, effectiveLevel, effectiveLevel, State.level, State.level, h.1, h.2]

theorem SameLevels.wanted_eq (h : s.SameLevels r) (c : Category) (op : Op) :
    s.wanted c op = r.wanted c op := by
  cases op with
  | record c' l text => rw [wanted, wanted, h.wants_eq]
  | _ => rfl

theorem sameLevels_step_record (s : State) (c : Category) (l : Level) (text : String) :
    (s.step (.record c l text)).2.SameLevels s := by
  rcases s.step_record c l text with h | ⟨limiter, h⟩ <;> (rw [h]; exact ⟨rfl, rfl⟩)

theorem SameLevels.step (h : s.SameLevels r) (op : Op) :
    (s.step op).2.SameLevels (r.step op).2 := by
  obtain ⟨hglobal, hlevels⟩ := h
  cases op with
  | record c l text =>
    have hs := s.sameLevels_step_record c l text
    have hr := r.sameLevels_step_record c l text
    exact ⟨hs.1.trans (hglobal.trans hr.1.symm), hs.2.trans (hlevels.trans hr.2.symm)⟩
  | setLevel c l => exact ⟨hglobal, congrArg (·.set c.index.val l c.index.isLt) hlevels⟩
  | setGlobalLevel => exact ⟨rfl, hlevels⟩
  | silence => exact ⟨rfl, rfl⟩
  | setLimit | wait => exact ⟨hglobal, hlevels⟩

/-- The wanted messages of a category are the same without the others. -/
theorem SameLevels.wantedIn_keptOf (h : s.SameLevels r) (ops : List Op) (c : Category) :
    r.wantedIn c (s.keptOf c ops) = s.wantedIn c ops := by
  induction ops generalizing s r with
  | nil => rfl
  | cons op ops ih =>
    rw [keptOf_cons, wantedIn_cons]
    rcases s.kept_cases op c with hkept | ⟨hnone, hunwanted, c', l, text, rfl⟩
    · rw [hkept, List.singleton_append, wantedIn_cons, h.wanted_eq, ih (h.step op)]
    · -- the other log does not meet the operation, whose levels are the same after it
      have hsame := s.sameLevels_step_record c' l text
      rw [hnone, hunwanted]
      exact ih ⟨hsame.1.trans h.1, hsame.2.trans h.2⟩

/-- A line is about the category of the message that is recorded. -/
theorem record_of_mem_step {line : Line} (h : line ∈ (s.step op).1) :
    ∃ l text, op = .record line.category l text := by
  cases op with
  | record c' l text =>
    rcases hwants : s.wants c' l with - | -
    · rw [step_record_of_not_wants hwants text] at h
      exact absurd h List.not_mem_nil
    · obtain ⟨v, limiter, -, heq⟩ := step_record_of_wants hwants text
      rw [heq, List.mem_append] at h
      rcases h with hsummary | hmessage
      · rw [summaryLines] at hsummary
        split at hsummary
        · exact ⟨l, text, by rw [List.mem_singleton.mp hsummary]; rfl⟩
        · exact absurd hsummary List.not_mem_nil
      · split at hmessage
        · exact ⟨l, text, by rw [List.mem_singleton.mp hmessage]; rfl⟩
        · exact absurd hmessage List.not_mem_nil
  | _ => exact absurd h List.not_mem_nil

theorem record_of_mem_run {line : Line} (h : line ∈ (s.run ops).1) :
    ∃ l text, .record line.category l text ∈ ops := by
  induction ops generalizing s with
  | nil => exact absurd h List.not_mem_nil
  | cons op ops ih =>
    rw [run_cons, List.mem_append] at h
    rcases h with hfirst | hlater
    · obtain ⟨l, text, rfl⟩ := record_of_mem_step hfirst
      exact ⟨l, text, List.mem_cons_self⟩
    · obtain ⟨l, text, hmem⟩ := ih hlater
      exact ⟨l, text, List.mem_cons_of_mem op hmem⟩

theorem category_of_mem_keptOf {c' : Category} {l : Level} {text : String}
    (h : .record c' l text ∈ s.keptOf c ops) : c' = c := by
  induction ops generalizing s with
  | nil => exact absurd h List.not_mem_nil
  | cons op ops ih =>
    rw [keptOf_cons, List.mem_append] at h
    rcases h with hfirst | hlater
    · cases op with
      | record c₁ l₁ text₁ =>
        rw [kept] at hfirst
        split at hfirst
        · rename_i hwanted
          cases List.mem_singleton.mp hfirst
          exact hwanted.1
        · exact absurd hfirst List.not_mem_nil
      | _ => cases List.mem_singleton.mp hfirst
    · exact ih hlater

/-- Without the other messages, all lines are about the category. -/
theorem linesOf_run_keptOf (s r : State) (ops : List Op) (c : Category) :
    linesOf c (r.run (s.keptOf c ops)).1 = (r.run (s.keptOf c ops)).1 := by
  refine List.filter_eq_self.mpr fun line hline => decide_eq_true ?_
  obtain ⟨l, text, hmem⟩ := record_of_mem_run hline
  exact category_of_mem_keptOf hmem

/-! ### The first messages -/

/-- What is written about a category, from a log with a limit and along operations at one
instant.

* `lines` — its first wanted messages, as many as the limit says, and after them one
  report of one dropped message if there are more;
* `unwanted` — a message that is not wanted next changes nothing;
* `next` — one that is wanted next has its words asked for and written if fewer than the
  limit came before it; if just as many came before it, the report is written, and nothing
  if there were more;
* `alone` — so it is without the messages of other categories and those not wanted. -/
structure PassesFirst (start : State) (c : Category) (ops : List Op) : Prop where
  lines : linesOf c (start.run ops).1 =
    ((start.wantedIn c ops).take start.limit).map (.message c) ++
      if start.limit < (start.wantedIn c ops).length then [.dropped c 1] else []
  unwanted : ∀ {l}, (start.run ops).2.wants c l = false →
    ∀ {μ : Type → Type} [Monad μ] (text : Unit → μ String),
      (start.run ops).2.recordM c l text = pure ([], (start.run ops).2)
  next : ∀ {l}, (start.run ops).2.wants c l = true →
    ∀ {μ : Type → Type} [Monad μ] (text : Unit → μ String),
      ∃ limiter, (start.run ops).2.recordM c l text =
        if (start.wantedIn c ops).length < start.limit then do
          let words ← text ()
          pure ([.message c words], (start.run ops).2.setLimiter c limiter)
        else
          pure (if (start.wantedIn c ops).length = start.limit then [.dropped c 1] else [],
            (start.run ops).2.setLimiter c limiter)
  alone : (start.run (start.keptOf c ops)).1 = linesOf c (start.run ops).1

/-- **The first messages of a category get through**, as many as the limit says, whatever
else is recorded at the same instant. -/
theorem passesFirst_run (now : Moment) (limit : Nat) {ops : List Op}
    (honce : ∀ op ∈ ops, op.AtOnce) (c : Category) :
    (limited now limit).PassesFirst c ops := by
  have hstands := (stands_limited now limit c).run honce
  rw [Nat.zero_add] at hstands
  have hkept : ∀ op ∈ (limited now limit).keptOf c ops, op.AtOnce := fun op hop =>
    honce op ((keptOf_sublist _ ops c).subset hop)
  have hsame : (limited now limit).SameLevels (limited now limit) := ⟨rfl, rfl⟩
  refine ⟨linesOf_run now limit c honce, fun hwants => recordM_of_not_wants hwants,
    fun hwants => hstands.recordM_of_wants hwants, ?_⟩
  rw [← linesOf_run_keptOf, linesOf_run now limit c hkept, linesOf_run now limit c honce,
    hsame.wantedIn_keptOf]

/-- Messages of two categories, one of them too detailed, with a change of a level between
them. -/
def mixedMessages : List Op :=
  [.setGlobalLevel .info, .record .bus .info "a", .record .timer .warn "b",
    .record .bus .debug "c", .setLevel .bus .debug, .record .bus .debug "d",
    .record .timer .info "e", .record .bus .info "f"]

/-- Two messages of the bus are dropped, and the first of them is reported. -/
theorem passesFirst_mixedMessages :
    (∀ op ∈ mixedMessages, op.AtOnce) ∧ (limited 0 1).PassesFirst .bus mixedMessages ∧
      linesOf .bus ((limited 0 1).run mixedMessages).1 =
        [.message .bus "a", .dropped .bus 1] := by
  have honce : ∀ op ∈ mixedMessages, op.AtOnce := by decide
  exact ⟨honce, passesFirst_run 0 1 honce .bus, by decide⟩

end State

end PcEngine.Log
