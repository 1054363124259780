import HostSurvey.Files.Name

/-!
# Access to files

What the program does with files, in any monad: it reads texts, tells files and directories from
other paths, lists the regular files of a directory, and writes texts. Reading, listing and writing
may fail, with the reasons of the operating system or because a text is not encoded as it should be.
-/

namespace HostSurvey

/-- Why a file cannot be read or written. -/
inductive FileError
  | notFound
  | notDirectory
  | isDirectory
  | tooManyLinks
  | nameTooLong
  | nulInName
  | notUtf8
  /-- A reason of the operating system in its own words. -/
  | system (message : String)
deriving DecidableEq

def FileError.message : FileError → String
  | .notFound => "No such file or directory (os error 2)"
  | .notDirectory => "Not a directory (os error 20)"
  | .isDirectory => "Is a directory (os error 21)"
  | .tooManyLinks => "Too many levels of symbolic links (os error 40)"
  | .nameTooLong => "File name too long (os error 36)"
  | .nulInName => "file name contained an unexpected NUL byte"
  | .notUtf8 => "stream did not contain valid UTF-8"
  | .system message => message

/-- Why the entries of a directory cannot be told. -/
structure ListingError where
  /-- The path that was looked at, unless the directory failed to give its next entry. -/
  path : Option String
  cause : FileError
deriving DecidableEq

def ListingError.message (e : ListingError) : String :=
  match e.path with
  | none => e.cause.message
  | some path => s!"IO error for operation on {path}: {e.cause.message}"

/-- The operations on files. Links are followed, except in the list of regular files. -/
structure FileAccess (m : Type → Type) where
  readText : String → m (Except FileError String)
  isDirectory : String → m Bool
  isFile : String → m Bool
  /-- The names of the regular files in a directory, links not among them. -/
  regularFiles : String → m (Except ListingError (List FileName))
  /-- Replaces the text of a file, which is created if it does not exist. -/
  writeText : String → String → m (Except FileError Unit)

end HostSurvey
