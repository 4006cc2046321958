/-
PcEngine/Proofs/Session/Mount.lean

Which images can be mounted.

The size of an image is looked at three times: to drop the header, to make out the card,
and when the card is bound.  The three agree.  An image is mounted if it is a number of
whole banks, at least one, with a header or without (`WellFormed`); the machine is then
that of the banks at its end (`lastBanks`).  Every other image is refused, with an error
that tells the size of the image as it was given.

What makes them agree is that the header is less than a bank.  So dropping it leaves the
number of whole banks as it was (`stripHeader_eq_lastBanks`), and no part of another one,
which could be taken for a header again (`stripHeader_stripHeader`).

Main result: `mounts_wellFormed`, for any session and any image.
-/
import PcEngine.Proofs.Session.Outcome

namespace PcEngine

namespace Card

variable {image rom header : Array Byte}

/-! ### Whole banks, with or without a header -/

theorem not_hasHeader_of_whole (h : rom.size % bankSize = 0) : ¬HasHeader rom := by
  rintro ⟨-, hsize⟩
  rw [h] at hsize
  cases hsize

/-- Whether an image is at least one bank and no part of another, perhaps behind a
header. -/
def WellFormed (image : Array Byte) : Prop :=
  (0 < image.size ∧ image.size % bankSize = 0) ∨ HasHeader image

/-- The banks at the end of an image. -/
def lastBanks (image : Array Byte) : Array Byte :=
  image.extract (image.size - bankSize * (image.size / bankSize)) image.size

/-- They are whole, and as many as the image has room for. -/
theorem size_lastBanks (image : Array Byte) :
    (lastBanks image).size = bankSize * (image.size / bankSize) := by
  rw [lastBanks, Array.size_extract, Nat.min_self]
  exact Nat.sub_sub_self (Nat.mul_div_le image.size bankSize)

/-- Without a header, they are all of a well-formed image; with one, all but the header. -/
theorem stripHeader_eq_lastBanks (h : WellFormed image) : stripHeader image = lastBanks image := by
  have hrest : image.size - bankSize * (image.size / bankSize) = image.size % bankSize :=
    Nat.mod_eq_sub_mul_div.symm
  rw [lastBanks, hrest]
  rcases h with ⟨-, hwhole⟩ | hheader
  · rw [stripHeader_of_not_hasHeader (not_hasHeader_of_whole hwhole), hwhole, Array.extract_size]
  · rw [stripHeader_of_hasHeader hheader, hheader.2]

/-- **A header is dropped once.** -/
theorem stripHeader_stripHeader (image : Array Byte) :
    stripHeader (stripHeader image) = stripHeader image := by
  by_cases h : HasHeader image
  · obtain ⟨-, hwhole⟩ := size_stripHeader_of_hasHeader h
    exact stripHeader_of_not_hasHeader (not_hasHeader_of_whole hwhole)
  · rw [stripHeader_of_not_hasHeader h]
    exact stripHeader_of_not_hasHeader h

/-- A header that is put before whole banks is what is dropped. -/
theorem stripHeader_append (hheader : header.size = headerSize) (hne : rom.size ≠ 0)
    (hwhole : rom.size % bankSize = 0) : stripHeader (header ++ rom) = rom := by
  have hhas : HasHeader (header ++ rom) := by
    rw [HasHeader, Array.size_append, hheader]
    simp only [headerSize, bankSize] at *
    omega
  rw [stripHeader_of_hasHeader hhas, ← hheader, Array.size_append, Array.extract_append_right,
    Array.extract_size]

/-- There is at least one bank. -/
theorem WellFormed.banks_pos (h : WellFormed image) : 0 < image.size / bankSize := by
  have hbank : bankSize ≤ image.size := by
    rcases h with ⟨hpos, hwhole⟩ | ⟨hlt, hmod⟩
    · exact Nat.le_of_dvd hpos (Nat.dvd_of_mod_eq_zero hwhole)
    · rcases Nat.lt_or_ge image.size bankSize with hshort | hlong
      · -- less than a bank is its own remainder, and longer than a header
        rw [Nat.mod_eq_of_lt hshort] at hmod
        exact absurd hmod (Nat.ne_of_gt hlt)
      · exact hlong
  exact Nat.div_pos hbank (by decide)

/-- **The card of a well-formed image accepts it**, and counts its whole banks. -/
theorem ofImage_of_wellFormed (h : WellFormed image) :
    ofImage (stripHeader image) = .ok ⟨image.size / bankSize, 0⟩ ∧
      validate ⟨image.size / bankSize, 0⟩ (stripHeader image) = .ok () := by
  have hsize : (stripHeader image).size = bankSize * (image.size / bankSize) := by
    rw [stripHeader_eq_lastBanks h, size_lastBanks]
  have hbanks : (stripHeader image).size / bankSize = image.size / bankSize := by
    rw [hsize]
    exact Nat.mul_div_cancel_left _ (by decide)
  have hne : (stripHeader image).size ≠ 0 := by
    rw [hsize]
    exact Nat.ne_of_gt (Nat.mul_pos (by decide) h.banks_pos)
  have hwhole : (stripHeader image).size % bankSize = 0 := by
    rw [hsize]
    exact Nat.mul_mod_right ..
  rw [← hbanks]
  exact ⟨ofImage_of_whole hne hwhole, validate_ofImage hne hwhole⟩

end Card

namespace Session

open Card (WellFormed lastBanks stripHeader)

variable {s : Session} {image : Array Byte}

/-! ### Mounting -/

theorem step_mount_of_wellFormed (h : WellFormed image) :
    s.step (.mount cardPoint.name image) =
      (.ok .done, s.withCard (lastBanks image) ⟨image.size / bankSize, 0⟩) := by
  obtain ⟨hcard, hvalid⟩ := Card.ofImage_of_wellFormed h
  rw [← Card.stripHeader_eq_lastBanks h]
  exact Action.run_bind_of_ok (run_mount_of_ok hcard hvalid) _

theorem refused_of_not_wellFormed (h : ¬WellFormed image) :
    Refused s (.mount cardPoint.name image)
      (if image.size = 0 then .emptyRom else .misalignedRom image.size) := by
  obtain ⟨hwhole, hheader⟩ := not_or.mp h
  by_cases hempty : image.size = 0
  · rw [if_pos hempty]
    exact .mountEmpty hempty
  · rw [if_neg hempty]
    exact .mountMisaligned (fun hmod => hwhole ⟨Nat.pos_of_ne_zero hempty, hmod⟩) hheader

/-- The session sees nothing of an image but what is behind the header. -/
theorem step_mount_congr {other : Array Byte} (h : stripHeader other = stripHeader image)
    (point : String) :
    s.step (.mount point other) = s.step (.mount point image) ∧
      s.notices (.mount point other) = s.notices (.mount point image) := by
  constructor
  · simp only [step, Op.action, mount, h]
  · simp only [notices, mountNotices, h]

/-- What becomes of an image that is to be mounted.

* `accepts` — it is mounted if it is well-formed, and only then;
* `mounted` — the machine is then the one with its last banks in it, which are as many as
  it has whole banks, without RAM and with the settings of the session;
* `refused` — otherwise the session stays as it is, and the error is that the image is
  empty, or else that its size is wrong;
* `mismatch` — no image has another number of banks than its own card;
* `header` — whole banks behind a header are mounted as they are without it;
* `stripped` — dropping the header again drops nothing. -/
structure MountsWellFormed (s : Session) (image : Array Byte) : Prop where
  accepts : (∃ answer, (s.step (.mount cardPoint.name image)).1 = .ok answer) ↔ WellFormed image
  mounted : WellFormed image → ∃ m,
    Machine.powerOn (lastBanks image) ⟨image.size / bankSize, 0⟩ s.settings = .ok m ∧
      s.step (.mount cardPoint.name image) = (.ok .done, ⟨s.settings, some m, 0⟩)
  refused : ¬WellFormed image → s.step (.mount cardPoint.name image) =
    (.error (if image.size = 0 then .emptyRom else .misalignedRom image.size), s)
  mismatch : ∀ point declared actual,
    (s.step (.mount point image)).1 ≠ .error (.romSizeMismatch declared actual)
  header : image.size ≠ 0 → image.size % bankSize = 0 → ∀ header : Array Byte,
    header.size = Card.headerSize → ∀ point,
      s.step (.mount point (header ++ image)) = s.step (.mount point image) ∧
        s.notices (.mount point (header ++ image)) = s.notices (.mount point image)
  stripped : stripHeader (stripHeader image) = stripHeader image

/-- **The well-formed images are mounted, and no others**, in any session. -/
theorem mounts_wellFormed (s : Session) (image : Array Byte) : s.MountsWellFormed image := by
  refine ⟨⟨?_, ?_⟩, ?_, fun h => step_of_refused (refused_of_not_wellFormed h), ?_, ?_,
    Card.stripHeader_stripHeader image⟩
  · rintro ⟨answer, hanswer⟩
    by_cases h : WellFormed image
    · exact h
    · rw [step_of_refused (refused_of_not_wellFormed h)] at hanswer
      cases hanswer
  · intro h
    exact ⟨.done, congrArg Prod.fst (step_mount_of_wellFormed h)⟩
  · intro h
    obtain ⟨-, hvalid⟩ := Card.ofImage_of_wellFormed h
    rw [Card.stripHeader_eq_lastBanks h] at hvalid
    exact ⟨_, powerOn_of_valid hvalid, step_mount_of_wellFormed h⟩
  · intro point declared actual hmismatch
    obtain ⟨hrefused, -⟩ := step_eq_error_iff.mp hmismatch
    cases hrefused
  · intro hne hwhole header hheader point
    refine step_mount_congr ?_ point
    rw [Card.stripHeader_append hheader hne hwhole,
      Card.stripHeader_of_not_hasHeader (Card.not_hasHeader_of_whole hwhole)]

end Session

end PcEngine
