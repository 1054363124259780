import HostSurvey.Files.Access

/-!
# Files on disk

The operations on files carried out by the operating system.
-/

namespace HostSurvey.Disk

/-- The reason of an error with the number that the operating system gave it. -/
def systemError (code : UInt32) (details : String) : FileError :=
  match code.toNat with
  | 2 => .notFound
  | 20 => .notDirectory
  | 21 => .isDirectory
  | 36 => .nameTooLong
  | 40 => .tooManyLinks
  | number => .system s!"{details} (os error {number})"

def fileError : IO.Error → FileError
  | .noFileOrDirectory _ code details => systemError code details
  | .inappropriateType _ code details => systemError code details
  | .invalidArgument _ code details => systemError code details
  | .permissionDenied _ code details => systemError code details
  | .resourceExhausted _ code details => systemError code details
  | .noSuchThing _ code details => systemError code details
  | .alreadyExists _ code details => systemError code details
  | .interrupted _ code details => systemError code details
  | .otherError code details => systemError code details
  | .resourceBusy code details => systemError code details
  | .resourceVanished code details => systemError code details
  | .unsupportedOperation code details => systemError code details
  | .hardwareFault code details => systemError code details
  | .unsatisfiedConstraints code details => systemError code details
  | .illegalOperation code details => systemError code details
  | .protocolError code details => systemError code details
  | .timeExpired code details => systemError code details
  | .unexpectedEof => .system "end of file"
  | .userError message => .system message

def readText (path : String) : IO (Except FileError String) := do
  try
    let handle ← IO.FS.Handle.mk path .read
    match String.fromUTF8? (← handle.readBinToEnd) with
    | none => return .error .notUtf8
    | some text => return .ok text
  catch e => return .error (fileError e)

/-- What a path leads to, links followed. -/
def fileType? (path : String) : IO (Option IO.FS.FileType) := do
  try
    return some (← (← IO.FS.realPath path).metadata).type
  catch _ => return none

def isDirectory (path : String) : IO Bool := do
  match ← fileType? path with
  | some .dir => return true
  | _ => return false

def isFile (path : String) : IO Bool := do
  match ← fileType? path with
  | some .file => return true
  | _ => return false

/-- A name that is not in UTF-8, given with a replacement character for what could not be decoded,
whose place is taken by a byte that stands in no text. -/
def replacedName (name : String) : FileName :=
  ⟨name.toList.flatMap fun c => if c = '\uFFFD' then [0xff] else (FileName.ofText c.toString).bytes⟩

/-- The name of an entry, if it is a regular file. Nothing is found under a name with replacement
characters that are not its own, so it cannot be told what it names; it is taken for a file. -/
def regularName? (entry : IO.FS.DirEntry) : IO (Except ListingError (Option FileName)) := do
  try
    let entryType := (← entry.path.symlinkMetadata).type
    return .ok (if entryType == .file then some (.ofText entry.fileName) else none)
  catch e =>
    if entry.fileName.contains '\uFFFD' then return .ok (some (replacedName entry.fileName))
    else return .error ⟨some entry.path.toString, fileError e⟩

def regularNames : List IO.FS.DirEntry → IO (Except ListingError (List FileName))
  | [] => return .ok []
  | entry :: rest => do
    match ← regularName? entry with
    | .error e => return .error e
    | .ok name? => return (← regularNames rest).map (name?.toList ++ ·)

def regularFiles (path : String) : IO (Except ListingError (List FileName)) := do
  try
    regularNames (← (← IO.FS.realPath path).readDir).toList
  catch e => return .error ⟨some path, fileError e⟩

def writeText (path text : String) : IO (Except FileError Unit) := do
  try
    IO.FS.writeFile path text
    return .ok ()
  catch e => return .error (fileError e)

def access : FileAccess IO := { readText, isDirectory, isFile, regularFiles, writeText }

end HostSurvey.Disk
