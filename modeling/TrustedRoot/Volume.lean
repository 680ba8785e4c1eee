import TrustedRoot.Host

/-!
A volume: directories, files with contents and links, held in memory and reached as a Unix system
reaches them, errors included. Relative paths start at a working directory.
-/

namespace TrustedRoot

/-- What a volume holds under a way from its root. -/
inductive Inode
  | directory
  | file (contents : Bytes)
  | link (target : Path)
deriving DecidableEq, Repr

/-- A volume. The root directory is always there and not listed. -/
structure Volume where
  inodes : Std.ExtTreeMap (List Name) Inode
  /-- The way to the working directory. -/
  workingDirectory : List Name

namespace Volume

/-- An error of the system with its number. -/
def systemError (kind : IoKind) (number : Nat) (text : String) : IoError :=
  ⟨kind, s!"{text} (os error {number})"⟩

/-- A name on the way is missing. -/
def noEntry : IoError := systemError .notFound 2 "No such file or directory"

/-- The entry is there already. -/
def fileExists : IoError := systemError .alreadyExists 17 "File exists"

/-- A name on the way is that of no directory. -/
def notDirectory : IoError := systemError .notADirectory 20 "Not a directory"

/-- The entry is a directory. -/
def isDirectory : IoError := systemError .isADirectory 21 "Is a directory"

/-- The entry is of the wrong sort. -/
def invalidArgument : IoError := systemError .invalidInput 22 "Invalid argument"

/-- A name or the path is too long. -/
def nameTooLong : IoError := systemError .invalidFilename 36 "File name too long"

/-- There are too many links on the way. -/
def tooManyLinks : IoError := systemError .filesystemLoop 40 "Too many levels of symbolic links"

/-- A path holds a zero byte, which no system call takes. -/
def zeroByte : IoError := ⟨.invalidInput, "file name contained an unexpected NUL byte"⟩

/-- How many links may be followed on one way. -/
def maxLinks : Nat := 40

/-- The longest name. -/
def maxName : Nat := 255

/-- The longest path. -/
def maxPath : Nat := 4095

/-- The volume without entries. -/
def empty : Volume := ⟨∅, []⟩

/-- The inode under a way from the root. -/
def at? (volume : Volume) (way : List Name) : Option Inode :=
  if way.isEmpty then some .directory else volume.inodes[way]?

/-- The pieces of a path that count on the way. A separator at the end counts as `.`: what stands
before it must be a directory. -/
def pieces (p : Path) : List Name :=
  let all := segments p.bytes
  let body := all.filter (· ≠ [])
  if all.getLast? = some [] ∧ body ≠ [] then body ++ [[dot]] else body

/-- Where a walk ends: the way to the last directory, and, unless the walk ends there, a name in it
with its inode, if that is there. -/
structure Spot where
  directory : List Name
  last : Option (Name × Option Inode)

/-- The way from the root to a spot. -/
def Spot.way (spot : Spot) : List Name :=
  spot.directory ++ (spot.last.map fun (name, _) => [name]).getD []

/-- Walks from a directory along the pieces of a path. A link that is the last piece is followed
only if `follow` is set. -/
def walk (volume : Volume) (follow : Bool) (links : Nat) (directory : List Name) :
    List Name → Except IoError Spot
  | [] => .ok ⟨directory, none⟩
  | name :: rest =>
    if name = [dot] then walk volume follow links directory rest
    else if name = [dot, dot] then walk volume follow links directory.dropLast rest
    else if maxName < name.length then .error nameTooLong
    else match volume.at? (directory ++ [name]) with
      | none => if rest.isEmpty then .ok ⟨directory, some (name, none)⟩ else .error noEntry
      | some .directory => walk volume follow links (directory ++ [name]) rest
      | some (.file contents) =>
        if rest.isEmpty then .ok ⟨directory, some (name, some (.file contents))⟩
        else .error notDirectory
      | some (.link target) =>
        if rest.isEmpty && !follow then .ok ⟨directory, some (name, some (.link target))⟩
        else if maxLinks ≤ links then .error tooManyLinks
        else
          let start := if target.isAbsolute then [] else directory
          walk volume follow (links + 1) start (pieces target ++ rest)
termination_by way => (maxLinks - links, way.length)
decreasing_by all_goals simp_wf; omega

/-- Walks along a path. -/
def reach (volume : Volume) (follow : Bool) (p : Path) : Except IoError Spot :=
  if p.bytes.contains 0 then .error zeroByte
  else if p.bytes = [] then .error noEntry
  else if maxPath < p.bytes.length then .error nameTooLong
  else volume.walk follow 0 (if p.isAbsolute then [] else volume.workingDirectory) (pieces p)

/-- The inode at a spot, which must be there. -/
def Spot.inode (spot : Spot) : Except IoError Inode :=
  match spot.last with
  | none => .ok .directory
  | some (_, some inode) => .ok inode
  | some (_, none) => .error noEntry

/-- The inode that a path names. -/
def find (volume : Volume) (follow : Bool) (p : Path) : Except IoError Inode := do
  (← volume.reach follow p).inode

/-- What a path names, the link itself if it is one. -/
def inspect (volume : Volume) (p : Path) : Except IoError Entry :=
  (volume.find false p).map fun
    | .directory => Entry.directory
    | .file _ => Entry.file
    | .link _ => Entry.link

/-- The target of the link that a path names. -/
def target (volume : Volume) (p : Path) : Except IoError Path := do
  match ← volume.find false p with
  | .link target => .ok target
  | _ => .error invalidArgument

/-- The contents of the file that a path names. -/
def read (volume : Volume) (p : Path) : Except IoError Bytes := do
  match ← volume.find true p with
  | .file contents => .ok contents
  | _ => .error isDirectory

/-- Whether a path names something. -/
def isPresent (volume : Volume) (p : Path) : Bool := (volume.find true p).isOk

/-- Whether a path names a file. -/
def isFile (volume : Volume) (p : Path) : Bool :=
  match volume.find true p with
  | .ok (.file _) => true
  | _ => false

/-- The volume as a host. -/
def host (volume : Volume) : Host Id where
  inspect := volume.inspect
  target := volume.target
  isPresent := volume.isPresent
  isFile := volume.isFile
  read := volume.read

/-- Puts an inode under a way. -/
def put (volume : Volume) (way : List Name) (inode : Inode) : Volume :=
  { volume with inodes := volume.inodes.insert way inode }

/-- Whether a path is spelled with a separator at its end. -/
def endsInSlash (p : Path) : Bool := p.bytes.getLast? == some slash

/-- A path without the separators at its end; nothing is left of one that has nothing else. -/
def withoutSlashes (p : Path) : Path := ⟨(p.bytes.reverse.dropWhile (· == slash)).reverse⟩

/-- Makes one directory. Separators at the end of its path do not count. -/
def makeDirectory (volume : Volume) (p : Path) : Except IoError Volume := do
  let trimmed := withoutSlashes p
  let spot ← volume.reach false (if trimmed.bytes = [] then p else trimmed)
  match spot.last with
  | some (_, none) => .ok (volume.put spot.way .directory)
  | _ => .error fileExists

/-- Whether a path names a directory. -/
def hasDirectory (volume : Volume) (p : Path) : Bool :=
  match volume.find true p with
  | .ok .directory => true
  | _ => false

/-- Makes one directory unless it is there. -/
def ensureDirectory (volume : Volume) (p : Path) : Except IoError Volume :=
  match volume.makeDirectory p with
  | .ok volume => .ok volume
  | .error e => if volume.hasDirectory p then .ok volume else .error e

/-- Makes the first directory of a list, and the others before it if they are what is missing. Each
path stands directly above the one in front of it. -/
def makeMissing (volume : Volume) : List Path → Except IoError Volume
  | [] => .ok volume
  | p :: above =>
    if p.bytes = [] then .ok volume
    else match volume.makeDirectory p with
      | .ok volume => .ok volume
      | .error e =>
        if e.kind = .notFound ∧ above ≠ [] then do (← makeMissing volume above).ensureDirectory p
        else if volume.hasDirectory p then .ok volume
        else .error e

/-- Makes a directory and what is missing above it. -/
def makeDirectories (volume : Volume) (p : Path) : Except IoError Volume :=
  volume.makeMissing p.ancestors

/-- Makes what is missing above a path. -/
def makeParents (volume : Volume) (p : Path) : Except IoError Volume :=
  match p.parent? with
  | none => .ok volume
  | some parent => volume.makeDirectories parent

/-- Writes a file and makes what is missing above it. -/
def write (volume : Volume) (p : Path) (contents : Bytes) : Except IoError Volume := do
  let volume ← volume.makeParents p
  if endsInSlash p then .error isDirectory
  else
    let spot ← volume.reach true p
    match spot.last with
    | none => .error isDirectory
    | some _ => .ok (volume.put spot.way (.file contents))

/-- Makes a link and what is missing above it. -/
def makeLink (volume : Volume) (p target : Path) : Except IoError Volume := do
  let volume ← volume.makeParents p
  if target.bytes.contains 0 then .error zeroByte
  else if target.bytes = [] then .error noEntry
  else if maxPath < target.bytes.length then .error nameTooLong
  else
    let spot ← volume.reach false p
    match spot.last with
    | some (_, none) => .ok (volume.put spot.way (.link target))
    | _ => .error fileExists

/-- Removes a file, a link, or a directory with all it holds. -/
def remove (volume : Volume) (p : Path) : Except IoError Volume := do
  let spot ← volume.reach false p
  let _ ← spot.inode
  .ok { volume with inodes := volume.inodes.filter fun way _ => !spot.way.isPrefixOf way }

end Volume
end TrustedRoot
