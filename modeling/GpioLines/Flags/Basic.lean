import GpioLines.Flags.Names

/-!
# Line settings and the words that carry them

The electrical settings of a line are six switches. A request, a handle and a metadata report each
carry them in a word of their own, the request with the bits in another order than the other two.
Inside the library the switches have names; the order of the bits is known here only.

Words that a caller composes keep their unknown bits. A metadata report drops them.
-/

namespace GpioLines

structure Settings where
  activeLow : Bool := false
  openDrain : Bool := false
  openSource : Bool := false
  biasDisable : Bool := false
  biasPullDown : Bool := false
  biasPullUp : Bool := false
deriving DecidableEq, Repr, Inhabited

namespace Settings

def bothDrives (settings : Settings) : Bool := settings.openDrain && settings.openSource

def anyDrive (settings : Settings) : Bool := settings.openDrain || settings.openSource

def biasCount (settings : Settings) : Nat :=
  settings.biasDisable.toNat + settings.biasPullDown.toNat + settings.biasPullUp.toNat

def withoutDrive (settings : Settings) : Settings :=
  { settings with openDrain := false, openSource := false }

/-- The settings in a handle word or a report, which both keep the low two bits for themselves. -/
def ofHandleBits (word : UInt32) : Settings where
  activeLow := hasBit word 2
  openDrain := hasBit word 3
  openSource := hasBit word 4
  biasPullUp := hasBit word 5
  biasPullDown := hasBit word 6
  biasDisable := hasBit word 7

def handleBits (settings : Settings) : UInt32 :=
  bitIf settings.activeLow 2 ||| bitIf settings.openDrain 3 ||| bitIf settings.openSource 4 |||
    bitIf settings.biasPullUp 5 ||| bitIf settings.biasPullDown 6 ||| bitIf settings.biasDisable 7

end Settings

/-! ### Request flags -/

/-- What a caller asks for besides the direction. -/
structure RequestFlags where
  settings : Settings := {}
  unknown : UInt32 := 0
deriving DecidableEq, Repr, Inhabited

namespace RequestFlags

def ofBits (word : UInt32) : RequestFlags where
  settings :=
    { activeLow := hasBit word 0, openDrain := hasBit word 1, openSource := hasBit word 2,
      biasDisable := hasBit word 3, biasPullDown := hasBit word 4, biasPullUp := hasBit word 5 }
  unknown := word &&& ~~~requestFlagNames.known

def toBits (flags : RequestFlags) : UInt32 :=
  bitIf flags.settings.activeLow 0 ||| bitIf flags.settings.openDrain 1 |||
    bitIf flags.settings.openSource 2 ||| bitIf flags.settings.biasDisable 3 |||
    bitIf flags.settings.biasPullDown 4 ||| bitIf flags.settings.biasPullUp 5 ||| flags.unknown

end RequestFlags

/-! ### Handle flags -/

/-- What a request or a reconfiguration tells the device: a direction, if any, and settings. -/
structure HandleFlags where
  input : Bool := false
  output : Bool := false
  settings : Settings := {}
  unknown : UInt32 := 0
deriving DecidableEq, Repr, Inhabited

namespace HandleFlags

def ofBits (word : UInt32) : HandleFlags where
  input := hasBit word 0
  output := hasBit word 1
  settings := Settings.ofHandleBits word
  unknown := word &&& ~~~handleFlagNames.known

def toBits (flags : HandleFlags) : UInt32 :=
  bitIf flags.input 0 ||| bitIf flags.output 1 ||| flags.settings.handleBits ||| flags.unknown

def requestFlags (flags : HandleFlags) : RequestFlags := { settings := flags.settings }

def describe (flags : HandleFlags) : String := handleFlagNames.render flags.toBits

end HandleFlags

/-! ### Info flags -/

structure InfoFlags where
  used : Bool := false
  output : Bool := false
  settings : Settings := {}
deriving DecidableEq, Repr, Inhabited

namespace InfoFlags

def ofBits (word : UInt32) : InfoFlags where
  used := hasBit word 0
  output := hasBit word 1
  settings := Settings.ofHandleBits word

def toBits (flags : InfoFlags) : UInt32 :=
  bitIf flags.used 0 ||| bitIf flags.output 1 ||| flags.settings.handleBits

end InfoFlags

/-! ### Edge flags -/

structure EdgeFlags where
  rising : Bool := false
  falling : Bool := false
  unknown : UInt32 := 0
deriving DecidableEq, Repr, Inhabited

namespace EdgeFlags

def ofBits (word : UInt32) : EdgeFlags where
  rising := hasBit word 0
  falling := hasBit word 1
  unknown := word &&& ~~~edgeFlagNames.known

def toBits (flags : EdgeFlags) : UInt32 :=
  bitIf flags.rising 0 ||| bitIf flags.falling 1 ||| flags.unknown

def describe (flags : EdgeFlags) : String := edgeFlagNames.render flags.toBits

end EdgeFlags

/-! ### What is written is read back -/

theorem RequestFlags.ofBits_toBits (settings : Settings) :
    ofBits (toBits { settings }) = { settings } := by
  obtain ⟨a, b, c, d, e, f⟩ := settings
  revert a b c d e f
  decide

theorem HandleFlags.ofBits_toBits (input output : Bool) (settings : Settings) :
    ofBits (toBits { input, output, settings }) = { input, output, settings } := by
  obtain ⟨a, b, c, d, e, f⟩ := settings
  revert input output a b c d e f
  decide

theorem InfoFlags.ofBits_toBits (flags : InfoFlags) : ofBits flags.toBits = flags := by
  obtain ⟨used, output, a, b, c, d, e, f⟩ := flags
  revert used output a b c d e f
  decide

end GpioLines
