import FfbInterceptor.Launcher.Arguments

/-! Paths of Windows as the manager joins and checks them (`manager_model.cpp`). -/
namespace FfbInterceptor.Manager
open FfbInterceptor.Launcher

inductive DriveType where
  | unknown
  | noRootDir
  | removable
  | fixed
  | remote
  | cdrom
  | ramdisk
  deriving DecidableEq, Repr

def wideColon : UInt16 := 0x3A
def wideSlash : UInt16 := 0x2F

def isDriveLetter (c : UInt16) : Bool := (0x41 ≤ c && c ≤ 0x5A) || (0x61 ≤ c && c ≤ 0x7A)

def DriveType.isLocal : DriveType → Bool
  | .fixed | .removable | .cdrom | .ramdisk => true
  | .unknown | .noRootDir | .remote => false

def pathIsAbsoluteLocal (getDriveType : WString → DriveType) : WString → Bool
  | letter :: second :: third :: _ =>
    isDriveLetter letter && second = wideColon && (third = backslash || third = wideSlash) &&
      (getDriveType [letter, wideColon, backslash]).isLocal
  | _ => false

def joinPath (left right : WString) : WString :=
  if left.isEmpty then right
  else if right.isEmpty then left
  else if left.getLast? = some backslash || left.getLast? = some wideSlash then left ++ right
  else left ++ [backslash] ++ right

end FfbInterceptor.Manager
