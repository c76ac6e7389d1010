/-!
Why an access to a file fails. The causes the file system itself reports have fixed messages;
anything else brings a message of its own.
-/
namespace SceneScript

inductive SystemFault where
  | noSuchEntry
  | entryExists
  | notADirectory
  | isADirectory
  | nameTooLong
  deriving DecidableEq

inductive FaultKind where
  | notFound
  | alreadyExists
  | notADirectory
  | isADirectory
  | invalidFilename
  | invalidInput
  | invalidData
  | permissionDenied
  | other
  deriving DecidableEq

inductive FileFault where
  | system (fault : SystemFault)
  | nulInPath
  | notText
  | custom (kind : FaultKind) (message : String)
  deriving DecidableEq

def SystemFault.message : SystemFault → String
  | .noSuchEntry => "No such file or directory (os error 2)"
  | .entryExists => "File exists (os error 17)"
  | .notADirectory => "Not a directory (os error 20)"
  | .isADirectory => "Is a directory (os error 21)"
  | .nameTooLong => "File name too long (os error 36)"

def SystemFault.kind : SystemFault → FaultKind
  | .noSuchEntry => .notFound
  | .entryExists => .alreadyExists
  | .notADirectory => .notADirectory
  | .isADirectory => .isADirectory
  | .nameTooLong => .invalidFilename

def FileFault.message : FileFault → String
  | .system fault => fault.message
  | .nulInPath => "file name contained an unexpected NUL byte"
  | .notText => "stream did not contain valid UTF-8"
  | .custom _ message => message

def FileFault.kind : FileFault → FaultKind
  | .system fault => fault.kind
  | .nulInPath => .invalidInput
  | .notText => .invalidData
  | .custom kind _ => kind

end SceneScript
