/-
PcEngine/Proofs/Session/Outcome.lean

What becomes of an operation of a session.

An operation is refused for one of the causes in `Refused`, which are told by the
operation and the session that it finds; or it is carried out, and then it does what
`Accepted` says.  Nothing else can happen (`step_outcome`).

A refused operation leaves the session as it found it.  This is a matter of order:
what an action has done by the time it is refused stays done, so it is the checks
coming first that keeps the machine and the count of cycles.

Main result: an operation is refused with an error exactly for that error's cause,
and then the session is as before (`step_eq_error_iff`).
-/
import PcEngine.Proofs.Machine.Carries
import PcEngine.Session

namespace PcEngine

/-! ### Images -/

namespace Card

variable {image rom : Array Byte} {card : Card}

/-- Whether an image starts with a header, told by its size. -/
def HasHeader (image : Array Byte) : Prop :=
  headerSize < image.size ∧ image.size % bankSize = headerSize

theorem stripHeader_of_hasHeader (h : HasHeader image) :
    stripHeader image = image.extract headerSize image.size :=
  if_pos h

theorem stripHeader_of_not_hasHeader (h : ¬HasHeader image) : stripHeader image = image :=
  if_neg h

/-- Behind a header there are whole banks, at least one. -/
theorem size_stripHeader_of_hasHeader (h : HasHeader image) :
    (stripHeader image).size ≠ 0 ∧ (stripHeader image).size % bankSize = 0 := by
  obtain ⟨hlt, hmod⟩ := h
  rw [stripHeader_of_hasHeader ⟨hlt, hmod⟩, Array.size_extract, Nat.min_self]
  simp only [headerSize, bankSize] at *
  omega

theorem isEmpty_eq_true_iff : rom.isEmpty = true ↔ rom.size = 0 :=
  Array.isEmpty_iff_size_eq_zero

theorem ofImage_of_empty (h : rom.size = 0) : ofImage rom = .error .emptyRom :=
  if_pos (isEmpty_eq_true_iff.mpr h)

theorem ofImage_of_misaligned (h : rom.size % bankSize ≠ 0) :
    ofImage rom = .error (.misalignedRom rom.size) := by
  have hne : ¬rom.isEmpty = true := fun e => h (by rw [isEmpty_eq_true_iff.mp e, Nat.zero_mod])
  rw [ofImage, if_neg hne, if_pos h]

theorem ofImage_of_whole (hne : rom.size ≠ 0) (h : rom.size % bankSize = 0) :
    ofImage rom = .ok ⟨rom.size / bankSize, 0⟩ := by
  rw [ofImage, if_neg (mt isEmpty_eq_true_iff.mp hne), if_neg (not_not_intro h)]

theorem validate_of_empty (h : card.romBanks = 0 ∨ rom.size = 0) :
    card.validate rom = .error .emptyRom :=
  if_pos (h.imp_right isEmpty_eq_true_iff.mpr)

theorem validate_of_misaligned (hbanks : card.romBanks ≠ 0) (h : rom.size % bankSize ≠ 0) :
    card.validate rom = .error (.misalignedRom rom.size) := by
  have hne : ¬(card.romBanks = 0 ∨ rom.isEmpty = true) := fun e =>
    e.elim hbanks fun e => h (by rw [isEmpty_eq_true_iff.mp e, Nat.zero_mod])
  rw [validate, if_neg hne, if_pos h]

theorem validate_of_whole (hbanks : card.romBanks ≠ 0) (hne : rom.size ≠ 0)
    (h : rom.size % bankSize = 0) :
    card.validate rom =
      if rom.size / bankSize ≠ card.romBanks then
        .error (.romSizeMismatch card.romBanks (rom.size / bankSize))
      else .ok () := by
  have hfirst : ¬(card.romBanks = 0 ∨ rom.isEmpty = true) := fun e =>
    e.elim hbanks fun e => hne (isEmpty_eq_true_iff.mp e)
  rw [validate, if_neg hfirst, if_neg (not_not_intro h)]

/-- The card of an image accepts the image. -/
theorem validate_ofImage (hne : rom.size ≠ 0) (h : rom.size % bankSize = 0) :
    validate ⟨rom.size / bankSize, 0⟩ rom = .ok () := by
  have hdvd : rom.size / bankSize * bankSize = rom.size :=
    Nat.div_mul_cancel (Nat.dvd_of_mod_eq_zero h)
  refine Machine.validate_eq_ok_iff.mpr ⟨fun hzero => hne ?_, hdvd.symm⟩
  have hbanks : rom.size / bankSize = 0 := hzero
  rw [← hdvd, hbanks, Nat.zero_mul]

end Card

namespace Session

/-! ### Causes -/

/-- Why an operation is refused.

* `mountPoint`, `unmountPoint` — there is no such mount point;
* `mountEmpty`, `mountMisaligned` — the image is empty, or not a whole number of banks,
  and that is not because of a header;
* `loadEmpty`, `loadMisaligned`, `loadMismatch` — so for the image of a card, which may
  also say that it has no banks, or not those of the image;
* `tick`, `machine` — there is no card. -/
inductive Refused (s : Session) : Op → Error → Prop
  | mountPoint {point image} (h : point ≠ cardPoint.name) :
      Refused s (.mount point image) (.unknownMountPoint point)
  | mountEmpty {image} (h : image.size = 0) : Refused s (.mount cardPoint.name image) .emptyRom
  | mountMisaligned {image} (h : image.size % bankSize ≠ 0) (hheader : ¬Card.HasHeader image) :
      Refused s (.mount cardPoint.name image) (.misalignedRom image.size)
  | unmountPoint {point} (h : point ≠ cardPoint.name) :
      Refused s (.unmount point) (.unknownMountPoint point)
  | loadEmpty {rom card} (h : card.romBanks = 0 ∨ rom.size = 0) :
      Refused s (.load rom card) .emptyRom
  | loadMisaligned {rom card} (hbanks : card.romBanks ≠ 0) (h : rom.size % bankSize ≠ 0) :
      Refused s (.load rom card) (.misalignedRom rom.size)
  | loadMismatch {rom card} (hbanks : card.romBanks ≠ 0) (hne : rom.size ≠ 0)
      (hwhole : rom.size % bankSize = 0) (h : rom.size / bankSize ≠ card.romBanks) :
      Refused s (.load rom card) (.romSizeMismatch card.romBanks (rom.size / bankSize))
  | tick {cycles} (h : s.machine = none) : Refused s (.tick cycles) .noCard
  | machine {op} (h : s.machine = none) : Refused s (.machine op) .noCard

/-- The session with a card in it, just switched on. -/
def withCard (s : Session) (rom : Array Byte) (card : Card) : Session :=
  { s with machine := some (Machine.boot rom card s.settings), cycles := 0 }

/-- What an operation does that is not refused: its answer, and the session after
it. -/
inductive Accepted (s : Session) : Op → Answer → Session → Prop
  | mount {image card} (h : Card.ofImage (Card.stripHeader image) = .ok card) :
      Accepted s (.mount cardPoint.name image) .done (s.withCard (Card.stripHeader image) card)
  | unmount : Accepted s (.unmount cardPoint.name) .done { s with machine := none, cycles := 0 }
  | load {rom card} (h : card.validate rom = .ok ()) :
      Accepted s (.load rom card) .done (s.withCard rom card)
  | tick {cycles m} (h : s.machine = some m) :
      Accepted s (.tick cycles) .done { s with
        machine := some (m.tick cycles.toNat)
        cycles := s.cycles + cycles.toUInt64 }
  | reset : Accepted s .reset .done s.reset
  | machine {op m} (h : s.machine = some m) :
      Accepted s (.machine op) (m.step op).1 { s with machine := some (m.step op).2 }

/-! ### Carrying out -/

variable {s : Session} {rom image : Array Byte} {card : Card} {point : String} {e : Error}

theorem checkPoint_of_ne (h : point ≠ cardPoint.name) :
    checkPoint point = .error (.unknownMountPoint point) :=
  if_neg h

theorem checkPoint_cardPoint : checkPoint cardPoint.name = .ok () := if_pos rfl

theorem powerOn_of_valid (h : card.validate rom = .ok ()) :
    Machine.powerOn rom card s.settings = .ok (Machine.boot rom card s.settings) :=
  Machine.powerOn_eq_ok_iff.mpr ⟨h, rfl⟩

theorem powerOn_of_invalid (h : card.validate rom = .error e) :
    Machine.powerOn rom card s.settings = .error e := by
  rw [Machine.powerOn, h]
  rfl

/-- The machine is put in before the count of cycles is set back, and only if it can
be switched on. -/
theorem run_load_of_valid (h : card.validate rom = .ok ()) :
    (load rom card).run.run s = (.ok (), s.withCard rom card) := by
  simp only [load, Action.run_bind, Action.run_get, Action.run_lift, powerOn_of_valid h,
    Action.run_modify, withCard]

theorem run_load_of_invalid (h : card.validate rom = .error e) :
    (load rom card).run.run s = (.error e, s) := by
  simp only [load, Action.run_bind, Action.run_get, Action.run_lift, powerOn_of_invalid h]

theorem run_mount_of_ne (h : point ≠ cardPoint.name) (image : Array Byte) :
    (mount point image).run.run s = (.error (.unknownMountPoint point), s) := by
  simp only [mount, Action.run_bind, Action.run_lift, checkPoint_of_ne h]

theorem run_mount_of_error (h : Card.ofImage (Card.stripHeader image) = .error e) :
    (mount cardPoint.name image).run.run s = (.error e, s) := by
  simp only [mount, Action.run_bind, Action.run_lift, checkPoint_cardPoint, h]

theorem run_mount_of_ok (h : Card.ofImage (Card.stripHeader image) = .ok card)
    (hvalid : card.validate (Card.stripHeader image) = .ok ()) :
    (mount cardPoint.name image).run.run s =
      (.ok (), s.withCard (Card.stripHeader image) card) := by
  simp only [mount, Action.run_bind, Action.run_lift, checkPoint_cardPoint, h,
    run_load_of_valid hvalid]

theorem run_unmount_of_ne (h : point ≠ cardPoint.name) :
    (unmount point).run.run s = (.error (.unknownMountPoint point), s) := by
  simp only [unmount, Action.run_bind, Action.run_lift, checkPoint_of_ne h]

theorem run_unmount :
    (unmount cardPoint.name).run.run s = (.ok (), { s with machine := none, cycles := 0 }) := by
  simp only [unmount, Action.run_bind, Action.run_lift, checkPoint_cardPoint, Action.run_modify]

theorem run_onMachine_of_none (h : s.machine = none) (op : Machine.Op) :
    (onMachine op).run.run s = (.error .noCard, s) := by
  obtain ⟨settings, machine, cycles⟩ := s
  cases h
  rfl

theorem run_onMachine_of_some {m : Machine} (h : s.machine = some m) (op : Machine.Op) :
    (onMachine op).run.run s = (.ok (m.step op).1, { s with machine := some (m.step op).2 }) := by
  obtain ⟨settings, machine, cycles⟩ := s
  cases h
  rfl

theorem run_tick_of_none (h : s.machine = none) (cycles : UInt32) :
    (tick cycles).run.run s = (.error .noCard, s) :=
  Action.run_bind_of_error (run_onMachine_of_none h _) _

/-- The count goes up with the machine's cycles. -/
theorem run_tick_of_some {m : Machine} (h : s.machine = some m) (cycles : UInt32) :
    (tick cycles).run.run s = (.ok (), { s with
      machine := some (m.tick cycles.toNat)
      cycles := s.cycles + cycles.toUInt64 }) :=
  Action.run_bind_of_ok (run_onMachine_of_some h _) _

/-! ### Outcomes -/

/-- **A cause for refusal refuses the operation**, and the session stays as it is. -/
theorem step_of_refused {op : Op} (h : Refused s op e) : s.step op = (.error e, s) := by
  cases h with
  | mountPoint h => exact Action.run_bind_of_error (run_mount_of_ne h _) _
  | @mountEmpty image h =>
    have hheader : ¬Card.HasHeader image := fun hh => by
      rw [Card.HasHeader, h] at hh
      exact Nat.not_lt_zero _ hh.1
    have hcard : Card.ofImage (Card.stripHeader image) = .error .emptyRom := by
      rw [Card.stripHeader_of_not_hasHeader hheader, Card.ofImage_of_empty h]
    exact Action.run_bind_of_error (run_mount_of_error hcard) _
  | @mountMisaligned image h hheader =>
    have hcard : Card.ofImage (Card.stripHeader image) = .error (.misalignedRom image.size) := by
      rw [Card.stripHeader_of_not_hasHeader hheader, Card.ofImage_of_misaligned h]
    exact Action.run_bind_of_error (run_mount_of_error hcard) _
  | unmountPoint h => exact Action.run_bind_of_error (run_unmount_of_ne h) _
  | loadEmpty h =>
    have hinvalid := Card.validate_of_empty h
    exact Action.run_bind_of_error (run_load_of_invalid hinvalid) _
  | loadMisaligned hbanks h =>
    have hinvalid := Card.validate_of_misaligned hbanks h
    exact Action.run_bind_of_error (run_load_of_invalid hinvalid) _
  | loadMismatch hbanks hne hwhole h =>
    have hinvalid := (Card.validate_of_whole hbanks hne hwhole).trans (if_pos h)
    exact Action.run_bind_of_error (run_load_of_invalid hinvalid) _
  | tick h => exact Action.run_bind_of_error (run_tick_of_none h _) _
  | machine h => exact run_onMachine_of_none h _

/-- A card and its image are right, or there is a cause to refuse them. -/
theorem refused_load_or_valid (s : Session) (rom : Array Byte) (card : Card) :
    (∃ e, Refused s (.load rom card) e) ∨ card.validate rom = .ok () := by
  by_cases hempty : card.romBanks = 0 ∨ rom.size = 0
  · exact .inl ⟨_, .loadEmpty hempty⟩
  obtain ⟨hbanks, hne⟩ := not_or.mp hempty
  by_cases hwhole : rom.size % bankSize = 0
  · by_cases hsize : rom.size / bankSize = card.romBanks
    · exact .inr ((Card.validate_of_whole hbanks hne hwhole).trans (if_neg (not_not_intro hsize)))
    · exact .inl ⟨_, .loadMismatch hbanks hne hwhole hsize⟩
  · exact .inl ⟨_, .loadMisaligned hbanks hwhole⟩

/-- So for an image that is to be mounted; its own card is the one it is mounted
with. -/
theorem refused_mount_or_valid (s : Session) (image : Array Byte) :
    (∃ e, Refused s (.mount cardPoint.name image) e) ∨
      ∃ card, Card.ofImage (Card.stripHeader image) = .ok card ∧
        card.validate (Card.stripHeader image) = .ok () := by
  have haccept : ∀ rom : Array Byte, rom.size ≠ 0 → rom.size % bankSize = 0 →
      ∃ card, Card.ofImage rom = .ok card ∧ card.validate rom = .ok () := fun rom hne hwhole =>
    ⟨_, Card.ofImage_of_whole hne hwhole, Card.validate_ofImage hne hwhole⟩
  by_cases hheader : Card.HasHeader image
  · obtain ⟨hne, hwhole⟩ := Card.size_stripHeader_of_hasHeader hheader
    exact .inr (haccept _ hne hwhole)
  by_cases hempty : image.size = 0
  · exact .inl ⟨_, .mountEmpty hempty⟩
  by_cases hwhole : image.size % bankSize = 0
  · rw [Card.stripHeader_of_not_hasHeader hheader]
    exact .inr (haccept _ hempty hwhole)
  · exact .inl ⟨_, .mountMisaligned hwhole hheader⟩

/-- **An operation is refused or carried out**, and there is nothing in between. -/
theorem step_outcome (s : Session) (op : Op) :
    (∃ e, Refused s op e ∧ s.step op = (.error e, s)) ∨
      ∃ answer s', Accepted s op answer s' ∧ s.step op = (.ok answer, s') := by
  have hrefuse : (∃ e, Refused s op e) → ∃ e, Refused s op e ∧ s.step op = (.error e, s) :=
    fun ⟨e, h⟩ => ⟨e, h, step_of_refused h⟩
  cases op with
  | mount point image =>
    by_cases hpoint : point = cardPoint.name
    · subst hpoint
      refine (refused_mount_or_valid s image).imp hrefuse fun ⟨card, hcard, hvalid⟩ => ?_
      exact ⟨_, _, .mount hcard, Action.run_bind_of_ok (run_mount_of_ok hcard hvalid) _⟩
    · exact .inl (hrefuse ⟨_, .mountPoint hpoint⟩)
  | unmount point =>
    by_cases hpoint : point = cardPoint.name
    · subst hpoint
      exact .inr ⟨_, _, .unmount, Action.run_bind_of_ok run_unmount _⟩
    · exact .inl (hrefuse ⟨_, .unmountPoint hpoint⟩)
  | load rom card =>
    exact (refused_load_or_valid s rom card).imp hrefuse fun hvalid =>
      ⟨_, _, .load hvalid, Action.run_bind_of_ok (run_load_of_valid hvalid) _⟩
  | tick cycles =>
    rcases hm : s.machine with - | m
    · exact .inl (hrefuse ⟨_, .tick hm⟩)
    · exact .inr ⟨_, _, .tick hm, Action.run_bind_of_ok (run_tick_of_some hm cycles) _⟩
  | reset => exact .inr ⟨_, _, .reset, rfl⟩
  | machine op =>
    rcases hm : s.machine with - | m
    · exact .inl (hrefuse ⟨_, .machine hm⟩)
    · exact .inr ⟨_, _, .machine hm, run_onMachine_of_some hm op⟩

/-- **An operation is refused with an error exactly for that error's cause**, and
leaves the session as it found it. -/
theorem step_eq_error_iff {op : Op} :
    (s.step op).1 = .error e ↔ Refused s op e ∧ (s.step op).2 = s := by
  constructor
  · intro h
    rcases s.step_outcome op with ⟨e', hrefused, heq⟩ | ⟨answer, s', -, heq⟩
    · rw [heq] at h
      cases h
      exact ⟨hrefused, congrArg Prod.snd heq⟩
    · rw [heq] at h
      cases h
  · rintro ⟨h, -⟩
    rw [step_of_refused h]

end Session

end PcEngine
