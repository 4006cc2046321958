/-
PcEngine/Proofs/History.lean

What the operations of a run have done, told by the operations themselves.

A state often remembers one thing about its past.  Three forms of this recur, and
all are asked of a run from a state `s`, for any `step`:

* `Since happens ends` — some operation did what `happens` says, and no later
  one did what `ends` says;
* `Latest shows forgets b` — the last thing that an operation showed is `b`, if
  nothing made it forgotten;
* `collect out` — what the operations gave out, one after the other.

They look at the state that an operation finds.  Whether something has happened
is decided, one operation after the other, by the last operation alone
(`since_concat`).  So a fact about a state that changes in the same way is a fact
about its history (`iff_since`), and so is a value that a state keeps
(`latest_iff`).
-/
import Mathlib.Data.List.Induction

namespace PcEngine

variable {σ ω β : Type} {step : σ → ω → σ} {s : σ}

/-! ### Something has happened, and nothing has ended it -/

/-- Along a run, some operation did what `happens` says, and no operation after
it did what `ends` says. -/
def Since (step : σ → ω → σ) (happens ends : σ → ω → Prop) (s : σ) (ops : List ω) : Prop :=
  ∃ before op after, ops = before ++ op :: after ∧ happens (before.foldl step s) op ∧
    ∀ later next rest, after = later ++ next :: rest →
      ¬ends ((before ++ op :: later).foldl step s) next

variable {happens ends : σ → ω → Prop}

theorem not_since_nil : ¬Since step happens ends s [] := by
  rintro ⟨before, op, after, heq, -⟩
  exact List.append_ne_nil_of_right_ne_nil before (List.cons_ne_nil op after) heq.symm

/-- Where an operation stands in a list with a last operation `op`: at the end, or
before it. -/
theorem concat_eq_append_cons_iff {ops before after : List ω} {op first : ω} :
    ops ++ [op] = before ++ first :: after ↔
      after = [] ∧ ops = before ∧ op = first ∨
        ∃ middle, after = middle ++ [op] ∧ ops = before ++ first :: middle := by
  constructor
  · intro h
    rcases List.eq_nil_or_concat after with rfl | ⟨middle, last, rfl⟩
    · obtain ⟨rfl, hop⟩ := List.append_inj' h rfl
      exact .inl ⟨rfl, rfl, List.singleton_inj.mp hop⟩
    · rw [List.concat_eq_append, ← List.cons_append, ← List.append_assoc] at h
      obtain ⟨rfl, hop⟩ := List.append_inj' h rfl
      cases hop
      exact .inr ⟨middle, List.concat_eq_append .., rfl⟩
  · rintro (⟨rfl, rfl, rfl⟩ | ⟨middle, rfl, rfl⟩)
    · rfl
    · rw [List.append_assoc, List.cons_append]

/-- The last operation did it, or it had happened before and the last operation
did not end it. -/
theorem since_concat (ops : List ω) (op : ω) :
    Since step happens ends s (ops ++ [op]) ↔
      happens (ops.foldl step s) op ∨
        Since step happens ends s ops ∧ ¬ends (ops.foldl step s) op := by
  constructor
  · rintro ⟨before, first, after, heq, hhappens, hlater⟩
    -- the operation in question is the last one, or one of `ops`
    rcases concat_eq_append_cons_iff.mp heq with ⟨-, rfl, rfl⟩ | ⟨middle, rfl, rfl⟩
    · exact .inl hhappens
    · refine .inr ⟨⟨before, first, middle, rfl, hhappens, ?_⟩, hlater middle op [] rfl⟩
      intro later next rest hmiddle
      refine hlater later next (rest ++ [op]) ?_
      rw [hmiddle, List.append_assoc, List.cons_append]
  · rintro (hhappens | ⟨⟨before, first, after, rfl, hhappens, hlater⟩, hlast⟩)
    · refine ⟨ops, op, [], rfl, hhappens, ?_⟩
      intro later next rest h
      exact absurd h.symm (List.append_ne_nil_of_right_ne_nil _ (List.cons_ne_nil next rest))
    · refine ⟨before, first, after ++ [op], by rw [List.append_assoc, List.cons_append],
        hhappens, ?_⟩
      intro later next rest h
      -- an operation that comes later is the last one, or came before the last one
      rcases concat_eq_append_cons_iff.mp h with ⟨-, rfl, rfl⟩ | ⟨middle, -, rfl⟩
      · exact hlast
      · exact hlater later next middle rfl

/-- What changes with every operation as `Since` does, starting from nothing,
is `Since`.  Operations that are not `allowed` do not occur. -/
theorem iff_since (P : List ω → Prop) (allowed : ω → Prop) (hnil : ¬P [])
    (hconcat : ∀ ops op, allowed op → (P (ops ++ [op]) ↔
      happens (ops.foldl step s) op ∨ P ops ∧ ¬ends (ops.foldl step s) op))
    (ops : List ω) (hops : ∀ op ∈ ops, allowed op) :
    P ops ↔ Since step happens ends s ops := by
  -- the induction is from the end, where `Since` looks
  induction ops using List.reverseRecOn with
  | nil => exact iff_of_false hnil not_since_nil
  | append_singleton ops op ih =>
    have hbefore : ∀ o ∈ ops, allowed o := fun o ho => hops o (List.mem_append_left _ ho)
    have hlast : allowed op := hops op (List.mem_append_right _ (List.mem_singleton_self op))
    rw [hconcat ops op hlast, since_concat, ih hbefore]

/-! ### The last thing shown -/

/-- Whether an operation puts an end to what was shown before it: by showing something
itself, or by making it forgotten. -/
def EndsShown (shows : β → σ → ω → Prop) (forgets : σ → ω → Prop) (s : σ) (op : ω) : Prop :=
  forgets s op ∨ ∃ b, shows b s op

/-- What a run leaves shown: the last thing that was shown and has not been forgotten,
or `d` if there is none. -/
def Latest (step : σ → ω → σ) (shows : β → σ → ω → Prop) (forgets : σ → ω → Prop) (d : β)
    (s : σ) (ops : List ω) (b : β) : Prop :=
  Since step (shows b) (EndsShown shows forgets) s ops ∨
    b = d ∧ ∀ other, ¬Since step (shows other) (EndsShown shows forgets) s ops

section

variable {shows : β → σ → ω → Prop} {forgets : σ → ω → Prop} {d b : β}
variable {ops : List ω} {op : ω}

theorem latest_nil : Latest step shows forgets d s [] b ↔ b = d := by
  constructor
  · rintro (hsince | ⟨hb, -⟩)
    · exact absurd hsince not_since_nil
    · exact hb
  · exact fun hb => .inr ⟨hb, fun _ => not_since_nil⟩

/-- An operation that ends what was shown before leaves what it shows, or nothing. -/
theorem latest_concat_of_ends (h : EndsShown shows forgets (ops.foldl step s) op) :
    Latest step shows forgets d s (ops ++ [op]) b ↔
      shows b (ops.foldl step s) op ∨ b = d ∧ ∀ other, ¬shows other (ops.foldl step s) op := by
  simp only [Latest, since_concat, h, not_true_eq_false, and_false, or_false]

/-- Any other operation leaves what was shown before. -/
theorem latest_concat_of_not_ends (h : ¬EndsShown shows forgets (ops.foldl step s) op) :
    Latest step shows forgets d s (ops ++ [op]) b ↔ Latest step shows forgets d s ops b := by
  have hshows : ∀ other, ¬shows other (ops.foldl step s) op := fun other hother =>
    h (.inr ⟨other, hother⟩)
  simp only [Latest, since_concat, h, hshows, not_false_eq_true, and_true, false_or]

/-- A value that takes over what is shown, falls back to `d` when it is forgotten, and is
kept otherwise, is what has been shown last. -/
theorem latest_iff {value : σ → β} (hshows : ∀ s op b, shows b s op → value (step s op) = b)
    (hforgets : ∀ s op, forgets s op → (∀ b, ¬shows b s op) → value (step s op) = d)
    (hkeeps : ∀ s op, ¬EndsShown shows forgets s op → value (step s op) = value s)
    (hstart : value s = d) (ops : List ω) (b : β) :
    Latest step shows forgets d s ops b ↔ value (ops.foldl step s) = b := by
  -- the induction is from the end, where `Since` looks
  induction ops using List.reverseRecOn with
  | nil =>
    rw [latest_nil, List.foldl_nil, hstart]
    exact eq_comm
  | append_singleton ops op ih =>
    rw [List.foldl_append, List.foldl_cons, List.foldl_nil]
    by_cases hends : EndsShown shows forgets (ops.foldl step s) op
    · rw [latest_concat_of_ends hends]
      by_cases hshown : ∃ shown, shows shown (ops.foldl step s) op
      · obtain ⟨shown, hshown⟩ := hshown
        constructor
        · rintro (hb | ⟨-, hnone⟩)
          · exact hshows _ _ _ hb
          · exact absurd hshown (hnone shown)
        · intro hb
          rw [← hb, hshows _ _ _ hshown]
          exact .inl hshown
      · rw [not_exists] at hshown
        rw [hforgets _ _ (hends.resolve_right (not_exists.mpr hshown)) hshown]
        constructor
        · rintro (hb | ⟨hb, -⟩)
          · exact absurd hb (hshown b)
          · exact hb.symm
        · exact fun hb => .inr ⟨hb.symm, hshown⟩
    · rw [latest_concat_of_not_ends hends, ih, hkeeps _ _ hends]

end

/-! ### What has been given out -/

/-- What the operations of a run give out, in order. -/
def collect (step : σ → ω → σ) (out : σ → ω → List β) (s : σ) : List ω → List β
  | [] => []
  | op :: ops => out s op ++ collect step out (step s op) ops

/-- What a run gives out is what its first part gives out, and then what the rest does. -/
theorem collect_append (out : σ → ω → List β) (s : σ) (first later : List ω) :
    collect step out s (first ++ later) =
      collect step out s first ++ collect step out (first.foldl step s) later := by
  induction first generalizing s with
  | nil => rfl
  | cons op first ih =>
    rw [List.cons_append, collect, ih, ← List.append_assoc]
    rfl

/-- The last of two stretches of output, or the last of the first if the second is
empty. -/
theorem getLastD_append (xs ys : List β) (d : β) :
    (xs ++ ys).getLastD d = ys.getLastD (xs.getLastD d) := by
  rw [List.getLastD_eq_getLast?, List.getLast?_append, Option.getD_or,
    ← List.getLastD_eq_getLast?, ← List.getLastD_eq_getLast?]

end PcEngine
