import GpioLines.Errno.Table

/-!
# Error numbers

A failed system call leaves a number. Numbers without an entry in the table are all the same
unknown error, which has the number zero.
-/

namespace GpioLines

structure Errno where
  code : Nat
deriving DecidableEq, Repr

namespace Errno

def find? (code : Int) : Option ErrnoEntry :=
  errnoEntries.find? fun entry => (entry.code : Int) == code

/-- The error with this number, or the unknown one. -/
def ofCode (code : Int) : Errno := ⟨((find? code).map (·.code)).getD 0⟩

/-- Symbol and description. -/
def message (errno : Errno) : String :=
  match find? errno.code with
  | some entry => entry.symbol ++ ": " ++ entry.description
  | none => "UnknownErrno: Unknown errno"

/-- What the system prints for a number, known or not. -/
def systemText (code : Int) : String :=
  let text := match find? code with
    | some entry => entry.systemText.getD entry.description
    | none => if code = 0 then "Success" else s!"Unknown error {code}"
  text ++ s!" (os error {code})"

def notPermitted : Errno := ⟨1⟩
def noEntry : Errno := ⟨2⟩
def ioFailure : Errno := ⟨5⟩
def badFile : Errno := ⟨9⟩
def wouldBlock : Errno := ⟨11⟩
def busy : Errno := ⟨16⟩
def alreadyExists : Errno := ⟨17⟩
def notDirectory : Errno := ⟨20⟩
def invalid : Errno := ⟨22⟩
def notTypewriter : Errno := ⟨25⟩
def brokenPipe : Errno := ⟨32⟩
def nameTooLong : Errno := ⟨36⟩

end Errno

end GpioLines
