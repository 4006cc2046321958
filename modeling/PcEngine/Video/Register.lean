/-
PcEngine/Video/Register.lean

The registers of the video controller and their numbers.

Only five bits of a register number are decoded, so numbers are taken modulo
32.  Not every number has a register behind it that does something, but every
number can be written and read back.
-/

namespace PcEngine.Video

def registerCount : Nat := 32

namespace Register

/-- Where in video memory the next word is written. -/
def writeAddress : Nat := 0x00

/-- Where in video memory the next word is read. -/
def readAddress : Nat := 0x01

/-- The word to be written to video memory; reading gives the word at the read
address instead. -/
def data : Nat := 0x02

/-- Interrupt enables, display enables and the address step. -/
def control : Nat := 0x05

def rasterCompare : Nat := 0x06

def scrollX : Nat := 0x07

def scrollY : Nat := 0x08

def memoryWidth : Nat := 0x09

def horizontalSync : Nat := 0x0A

/-- Low byte: width of the display, in tiles less one. -/
def horizontalDisplay : Nat := 0x0B

/-- High byte: lines before the display; low byte: length of the vertical
sync. -/
def verticalSync : Nat := 0x0C

/-- Height of the display, in lines less one. -/
def verticalDisplay : Nat := 0x0D

def verticalEnd : Nat := 0x0E

/-- Directions and interrupt enables of the transfers. -/
def transferControl : Nat := 0x0F

def transferSource : Nat := 0x10

def transferTarget : Nat := 0x11

/-- Words to transfer, less one; writing the high byte starts the transfer. -/
def transferLength : Nat := 0x12

/-- Where in video memory the sprite table is; writing the high byte asks for
it to be copied. -/
def spriteTable : Nat := 0x13

/-- Whether writing a register changes the shape of the picture. -/
def isGeometry (n : Nat) : Bool :=
  n == memoryWidth || n == horizontalSync || n == horizontalDisplay ||
    n == verticalSync || n == verticalDisplay || n == verticalEnd

end Register

end PcEngine.Video
