/-
PcEngine/Error.lean

Why an operation of a session is refused.
-/
import PcEngine.File.Place
import PcEngine.Json.Fault

namespace PcEngine

/-- Why an operation is refused.

* `emptyRom`, `misalignedRom`, `romSizeMismatch` — an image that cannot be a
  card, or not the card it is said to be;
* `noCard` — the operation needs a card and none is mounted;
* `unknownMountPoint` — there is no such mount point;
* `settings` — a settings text could not be read;
* `file` — a file could not be used. -/
inductive Error where
  | emptyRom
  | misalignedRom (size : Nat)
  | romSizeMismatch (declared actual : Nat)
  | noCard
  | unknownMountPoint (name : String)
  | settings (fault : Json.Fault)
  | file (fault : File.Fault)
  deriving DecidableEq

/-- What a settings fault is called. -/
def Json.Fault.message : Json.Fault → String
  | .malformed => "unexpected character"
  | .truncated => "unexpected end of text"
  | .unfit => "unexpected value"

namespace Error

/-- The wording. -/
def message : Error → String
  | emptyRom => "ROM image is empty"
  | misalignedRom size =>
    "ROM image of " ++ toString size ++ " bytes is not a multiple of 8 KiB"
  | romSizeMismatch declared actual =>
    "cartridge declares " ++ toString declared ++ " ROM banks but the image holds " ++
      toString actual
  | noCard => "no cartridge mounted"
  | unknownMountPoint name => "invalid mount point: " ++ name
  | settings fault => "invalid configuration: " ++ fault.message
  | file fault => "I/O error: " ++ fault.message

end Error

end PcEngine
