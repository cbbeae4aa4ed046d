/-!
# What can go wrong with a file

The causes for which a file or directory cannot be read, with the words of the operating system.
-/

namespace VersionChain.Files

/-- The cause for which a file or directory cannot be read. -/
inductive Fault where
  | permissionDenied
  | noSuchFile
  | notADirectory
  | isADirectory
  | nameTooLong
  | tooManyLinks
  /-- The name holds the character zero, which no file system takes. -/
  | zeroInName
  /-- The content is not a text. -/
  | notText
  /-- A cause described by whoever found it. -/
  | described (message : String)
deriving DecidableEq

/-- The words for a cause; those of the operating system are followed by its number for the cause. -/
def Fault.message : Fault → String
  | permissionDenied => "Permission denied (os error 13)"
  | noSuchFile => "No such file or directory (os error 2)"
  | notADirectory => "Not a directory (os error 20)"
  | isADirectory => "Is a directory (os error 21)"
  | nameTooLong => "File name too long (os error 36)"
  | tooManyLinks => "Too many levels of symbolic links (os error 40)"
  | zeroInName => "file name contained an unexpected NUL byte"
  | notText => "stream did not contain valid UTF-8"
  | described message => message

end VersionChain.Files
