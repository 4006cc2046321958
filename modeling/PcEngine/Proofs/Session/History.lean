/-
PcEngine/Proofs/Session/History.lean

What a session tells about its past.

A session remembers two things: whether there is a card, and how many cycles have
passed.  Both are told by the operations that were carried out; those that were
refused leave no trace.

* There is a card if one was put in and not taken out since.
* The count of cycles starts over with every card put in or taken out and with every
  reset, and adds up from there.  It has 64 bits, so it tells the sum only while that
  is below 2^64.

Main result: a refused operation changes nothing, and whether a card is mounted and
the count of cycles tell the run (`refusals_and_history`).
-/
import Mathlib.Algebra.Order.Ring.Nat
import PcEngine.Proofs.History
import PcEngine.Proofs.Session.Outcome

namespace PcEngine.Session

variable {s : Session} {op : Op} {ops : List Op}

/-! ### Runs -/

theorem run_append (s : Session) (ops ops' : List Op) :
    s.run (ops ++ ops') = (s.run ops).run ops' :=
  List.foldl_append

theorem run_concat (s : Session) (ops : List Op) (op : Op) :
    s.run (ops ++ [op]) = ((s.run ops).step op).2 :=
  s.run_append ops [op]

/-! ### What an operation is for -/

/-- Operations that put a card in. -/
def Op.insertsCard : Op → Bool
  | .mount .. | .load .. => true
  | _ => false

/-- Operations that take the card out. -/
def Op.removesCard : Op → Bool
  | .unmount _ => true
  | _ => false

/-- Operations that start the count of cycles. -/
def Op.startsCount : Op → Bool
  | .mount .. | .load .. | .unmount _ | .reset => true
  | _ => false

/-- Whether an operation is carried out. -/
def Succeeds (s : Session) (op : Op) : Prop := ∃ answer, (s.step op).1 = .ok answer

/-- An operation puts a card in. -/
def Inserts (s : Session) (op : Op) : Prop := op.insertsCard = true ∧ s.Succeeds op

/-- An operation takes the card out. -/
def Removes (s : Session) (op : Op) : Prop := op.removesCard = true ∧ s.Succeeds op

/-- An operation starts the count of cycles. -/
def Restarts (s : Session) (op : Op) : Prop := op.startsCount = true ∧ s.Succeeds op

/-- The cycles that an operation lets pass. -/
def ticked (s : Session) (op : Op) : List Nat :=
  match op, (s.step op).1 with
  | .tick cycles, .ok _ => [cycles.toNat]
  | _, _ => []

/-- The cycles that the operations of a run let pass. -/
def ticks (s : Session) (ops : List Op) : List Nat :=
  collect (fun s op => (s.step op).2) ticked s ops

/-! ### One operation -/

theorem not_succeeds_of_error {e : Error} (h : s.step op = (.error e, s)) : ¬s.Succeeds op := by
  rintro ⟨answer, hok⟩
  rw [h] at hok
  cases hok

theorem ticked_of_error {e : Error} (h : s.step op = (.error e, s)) : s.ticked op = [] := by
  cases op <;> simp only [ticked, h]

/-- There is a card if it has been put in now, or was there and has not been taken
out. -/
theorem isSome_machine_step (s : Session) (op : Op) :
    (s.step op).2.machine.isSome = true ↔
      s.Inserts op ∨ s.machine.isSome = true ∧ ¬s.Removes op := by
  rcases s.step_outcome op with ⟨e, -, heq⟩ | ⟨answer, s', haccepted, heq⟩
  · have hfails := not_succeeds_of_error heq
    rw [heq]
    simp only [Inserts, Removes, hfails, and_false, false_or, not_false_eq_true, and_true]
  · have hsucceeds : s.Succeeds op := ⟨answer, by rw [heq]⟩
    rw [heq]
    cases haccepted <;>
      simp [Inserts, Removes, Op.insertsCard, Op.removesCard, withCard, reset, *]

theorem cycles_step_of_restarts (h : s.Restarts op) : (s.step op).2.cycles = 0 := by
  obtain ⟨hstarts, hsucceeds⟩ := h
  rcases s.step_outcome op with ⟨e, -, heq⟩ | ⟨answer, s', haccepted, heq⟩
  · exact absurd hsucceeds (not_succeeds_of_error heq)
  · rw [heq]
    cases haccepted with
    | mount | unmount | load | reset => rfl
    | tick | machine => exact absurd hstarts Bool.false_ne_true

/-- Without a start, the count goes up by what has been ticked. -/
theorem cycles_step_of_not_restarts (h : ¬s.Restarts op) :
    (s.step op).2.cycles = s.cycles + UInt64.ofNat (s.ticked op).sum := by
  rcases s.step_outcome op with ⟨e, -, heq⟩ | ⟨answer, s', haccepted, heq⟩
  · rw [heq, ticked_of_error heq]
    exact (UInt64.add_zero _).symm
  · have hsucceeds : s.Succeeds op := ⟨answer, by rw [heq]⟩
    rw [heq]
    cases haccepted with
    | mount | unmount | load | reset => exact absurd ⟨rfl, hsucceeds⟩ h
    | @tick cycles =>
      simp only [ticked, heq, List.sum_singleton, UInt64.ofNat_uInt32ToNat]
    | machine => exact (UInt64.add_zero _).symm

/-! ### Whether there is a card -/

/-- Along a run, a card was put in and not taken out since. -/
def InsertedSince (s : Session) (ops : List Op) : Prop :=
  Since (fun s op => (s.step op).2) Inserts Removes s ops

theorem isMounted_eq_true_iff (s : Session) (point : String) :
    s.isMounted point = true ↔ point = cardPoint.name ∧ s.machine.isSome = true := by
  rw [isMounted, Bool.and_eq_true, decide_eq_true_iff]

theorem isSome_machine_run_iff (settings : Settings) (ops : List Op) :
    ((ofSettings settings).run ops).machine.isSome = true ↔
      (ofSettings settings).InsertedSince ops := by
  refine iff_since (fun ops => ((ofSettings settings).run ops).machine.isSome = true)
    (fun _ => True) Bool.false_ne_true (fun ops op _ => ?_) ops fun _ _ => trivial
  rw [run_concat]
  exact isSome_machine_step _ op

/-! ### The count of cycles -/

/-- No operation of a run starts the count. -/
def CountsOn (s : Session) : List Op → Prop
  | [] => True
  | op :: ops => ¬s.Restarts op ∧ (s.step op).2.CountsOn ops

theorem countsOn_append (s : Session) (ops ops' : List Op) :
    s.CountsOn (ops ++ ops') ↔ s.CountsOn ops ∧ (s.run ops).CountsOn ops' := by
  induction ops generalizing s with
  | nil => exact (and_iff_right trivial).symm
  | cons op ops ih =>
    rw [List.cons_append, CountsOn, CountsOn, ih, and_assoc]
    rfl

/-- The count goes up by all that has been ticked. -/
theorem cycles_run_of_countsOn (h : s.CountsOn ops) :
    (s.run ops).cycles = s.cycles + UInt64.ofNat (s.ticks ops).sum := by
  induction ops generalizing s with
  | nil => exact (UInt64.add_zero _).symm
  | cons op ops ih =>
    have hticks : s.ticks (op :: ops) = s.ticked op ++ (s.step op).2.ticks ops := rfl
    have hrest : (s.run (op :: ops)).cycles = _ := ih h.2
    rw [hrest, cycles_step_of_not_restarts h.1, hticks, List.sum_append, UInt64.ofNat_add,
      UInt64.add_assoc]

/-- How a run falls in two at the last start of the count.

* `split` — into `before` and `after`;
* `start` — `before` ends with the start, or is empty if there was none;
* `last` — there is no start in `after`. -/
structure SplitsAtStart (s : Session) (ops before after : List Op) : Prop where
  split : ops = before ++ after
  start : before = [] ∨
    ∃ earlier op, before = earlier ++ [op] ∧ (s.run earlier).Restarts op
  last : (s.run before).CountsOn after

theorem exists_splitsAtStart (s : Session) (ops : List Op) :
    ∃ before after, s.SplitsAtStart ops before after := by
  -- the induction is from the end, where the last start is
  induction ops using List.reverseRecOn with
  | nil => exact ⟨[], [], rfl, .inl rfl, trivial⟩
  | append_singleton ops op ih =>
    by_cases hop : (s.run ops).Restarts op
    · exact ⟨ops ++ [op], [], (List.append_nil _).symm, .inr ⟨ops, op, rfl, hop⟩, trivial⟩
    · obtain ⟨before, after, rfl, hstart, hlast⟩ := ih
      refine ⟨before, after ++ [op], List.append_assoc .., hstart, ?_⟩
      rw [run_append] at hop
      exact (countsOn_append _ _ _).mpr ⟨hlast, hop, trivial⟩

/-- The count is zero where it starts. -/
theorem SplitsAtStart.cycles_before {settings : Settings} {before after : List Op}
    (h : (ofSettings settings).SplitsAtStart ops before after) :
    ((ofSettings settings).run before).cycles = 0 := by
  rcases h.start with rfl | ⟨earlier, op, rfl, hop⟩
  · rfl
  · rw [run_concat]
    exact cycles_step_of_restarts hop

theorem SplitsAtStart.cycles_run {settings : Settings} {before after : List Op}
    (h : (ofSettings settings).SplitsAtStart ops before after)
    (hsum : (((ofSettings settings).run before).ticks after).sum < 2 ^ 64) :
    ((ofSettings settings).run ops).cycles.toNat =
      (((ofSettings settings).run before).ticks after).sum := by
  rw [h.split, run_append, cycles_run_of_countsOn h.last, h.cycles_before, UInt64.zero_add]
  exact UInt64.toNat_ofNat_of_lt hsum

/-! ### The whole past -/

/-- What a session tells about a run.

* `mounted` — whether a card is mounted tells that one was put in and not taken out
  since;
* `cycles` — the count of cycles tells what has been ticked since its last start, if
  that is below 2^64;
* `split` — there is such a last start, or none in the run. -/
structure TellsPast (settings : Settings) (ops : List Op) : Prop where
  mounted : ∀ point, ((ofSettings settings).run ops).isMounted point = true ↔
    point = "cartridge" ∧ (ofSettings settings).InsertedSince ops
  cycles : ∀ before after, (ofSettings settings).SplitsAtStart ops before after →
    (((ofSettings settings).run before).ticks after).sum < 2 ^ 64 →
      ((ofSettings settings).run ops).cycles.toNat =
        (((ofSettings settings).run before).ticks after).sum
  split : ∃ before after, (ofSettings settings).SplitsAtStart ops before after

/-- A session that starts with a card has loaded it. -/
theorem ofRom_eq_ok_iff {settings : Settings} {rom : Array Byte} {card : Card} :
    ofRom settings rom card = .ok s ↔
      (ofSettings settings).step (.load rom card) = (.ok .done, s) := by
  rcases hvalid : card.validate rom with e | ⟨⟩
  · simp only [ofRom, step, Op.action, Action.run_bind, run_load_of_invalid hvalid, reduceCtorEq,
      Prod.mk.injEq, false_and]
  · simp only [ofRom, step, Op.action, Action.run_bind, run_load_of_valid hvalid, Action.run_pure,
      Except.ok.injEq, Prod.mk.injEq, true_and]

/-- **A refused operation changes nothing, and a session tells the operations that were
carried out**: an operation is refused for its causes alone and then leaves the session
as it was; and whatever is done to a new session, it tells whether a card is in it and
what has been ticked. -/
theorem refusals_and_history :
    (∀ s op e, ((s.step op).1 = .error e ↔ Refused s op e) ∧
      ((s.step op).1 = .error e → (s.step op).2 = s)) ∧
    (∀ settings ops, TellsPast settings ops) ∧
    ∀ settings rom card s, ofRom settings rom card = .ok s ↔
      (ofSettings settings).step (.load rom card) = (.ok .done, s) := by
  refine ⟨fun s op e => ⟨⟨fun h => ?_, fun h => ?_⟩, fun h => ?_⟩, fun settings ops => ?_,
    fun settings rom card s => ofRom_eq_ok_iff⟩
  · exact (step_eq_error_iff.mp h).1
  · rw [step_of_refused h]
  · exact (step_eq_error_iff.mp h).2
  · refine ⟨fun point => ?_, fun before after h => h.cycles_run, exists_splitsAtStart _ ops⟩
    rw [isMounted_eq_true_iff, isSome_machine_run_iff]
    rfl

end PcEngine.Session
