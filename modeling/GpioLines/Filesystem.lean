import GpioLines.Error

/-!
# Paths

Opening a device by path depends on what the path leads to. The tree here has what every system has:
a few character devices, directories and a plain file. A path that does not start at the root starts
at an empty directory.
-/

namespace GpioLines

inductive Node where
  | directory (entries : List (String × Node))
  | plainFile
  | characterDevice

namespace Node

def isDirectory : Node → Bool
  | directory _ => true
  | _ => false

def isCharacterDevice : Node → Bool
  | characterDevice => true
  | _ => false

def systemTree : Node :=
  directory [
    ("dev", directory
      [("null", characterDevice), ("zero", characterDevice), ("full", characterDevice)]),
    ("proc", directory [("self", directory [("status", plainFile)])])]

end Node

inductive PathFault where
  | missing
  | failed (fault : IoFault)
deriving DecidableEq, Repr

namespace Path

def longestName : Nat := 255

def longestPath : Nat := 4095

def names (path : String) : List String := path.splitOn "/"

/-- Follows names from the first node of the list, whose parents are the other nodes. -/
def walk : List Node → List String → Except PathFault Node
  | [], _ => .error .missing
  | node :: _, [] => .ok node
  | node :: parents, name :: rest =>
    match node with
    | .directory entries =>
      if name = "" ∨ name = "." then walk (node :: parents) rest
      else if name = ".." then
        match parents with
        | [] => walk [node] rest
        | parent :: above => walk (parent :: above) rest
      else if longestName < name.utf8ByteSize then
        .error (.failed (.system Errno.nameTooLong.code))
      else match entries.lookup name with
        | some next => walk (next :: node :: parents) rest
        | none => .error .missing
    | _ => .error (.failed (.system Errno.notDirectory.code))

def resolve (tree : Node) (path : String) : Except PathFault Node :=
  if path.toList.contains '\x00' then
    .error (.failed (.refused "file name contained an unexpected NUL byte"))
  else if path = "" then .error .missing
  else if longestPath < path.utf8ByteSize then .error (.failed (.system Errno.nameTooLong.code))
  else if path.startsWith "/" then walk [tree] (names path)
  else walk [.directory [], tree] (names path)

/-- The path of a device with this name; one that starts at the root is a path already. -/
def ofDeviceName (name : String) : String := if name.startsWith "/" then name else "/dev/" ++ name

def ofDeviceNumber (number : UInt32) : String := s!"/dev/gpiochip{number}"

end Path

end GpioLines
