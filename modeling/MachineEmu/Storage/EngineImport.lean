import MachineEmu.Storage.Components

/-!
# The import of engine archives

An archive of an engine build is unpacked into a directory of its own below `engines`, every file
is compared with its checksum, and the directory gets the name of its track and of the digest of
the checksums. Then the registry is written.

* `relativePath`, `checksums` — paths and the checksum file.
* `EngineManifest.check` — the checks of a manifest.
* `extract`, `verify`, `checkBundle` — what happens in the staging directory.
* `publishEngine`, `registerEngine`, `importEngine` — the procedure.
-/

namespace MachineEmu

open Lib Prog Store

/-! ## Data -/

/-- What an archive has under a name. -/
inductive ArchiveContent where
  | file (bytes : List UInt8)
  | dir
  | other

/-- An entry of an archive. -/
structure ArchiveEntry where
  path : String
  content : ArchiveContent

/-- Source: `engine_import.rs` `Manifest`. -/
structure EngineManifest where
  schemaVersion : Nat
  trackId : String
  buildDigest : String
  dirtySource : Bool
  executables : SortedMap String String
  executableSha256 : SortedMap String String
  qemuVersion : String

/-- Source: `config.rs` `EngineConfig`. -/
structure EngineConfig where
  path : Path
  version : Option String
  buildDigest : Option String
  target : Option String
  deriving DecidableEq

/-- The engine of each track. -/
abbrev EngineRegistry := SortedMap String EngineConfig

/-- The readers of archives and documents. An archive is read as far as it can be; a registry that
was written is read back. -/
structure EngineFormats where
  archive : List UInt8 → List (Except String ArchiveEntry)
  manifest : List UInt8 → Except String EngineManifest
  registry : EngineRegistry → List UInt8
  readRegistry : List UInt8 → Except String EngineRegistry
  read_registry : ∀ r, readRegistry (registry r) = .ok r

/-! ## Paths and checksums -/

/-- The components of a path that has nothing but names; `.` is skipped where a name precedes it.
Source: `engine_import.rs` `relative`. -/
def relativePath (text : List Char) : Option Path :=
  match (text.splitOn '/').map String.ofList with
  | [] => none
  | first :: rest =>
    if first = "" ∨ first = "." ∨ first = ".." ∨ ".." ∈ rest then none
    else some (first :: rest.filter fun part => part ≠ "" ∧ part ≠ ".")

/-- The path as it is opened: a slash at its end is an empty name, which no file has. -/
def writtenPath (text : List Char) : Option Path :=
  (relativePath text).map fun path =>
    if (text.splitOn '/').getLast? = some [] ∨ (text.splitOn '/').getLast? = some ['.'] then
      path ++ [""]
    else path

/-- The components of a path that may end in a slash. -/
def trimmed (path : Path) : Path := path.filter (· ≠ "")

/-- `str::lines`. -/
def textLines (text : List Char) : List (List Char) :=
  let parts := text.splitOn '\n'
  (parts.dropLast.map fun line =>
    if line.getLast? = some '\r' then line.dropLast else line) ++
    (parts.getLast?.filter (· ≠ [])).toList

/-- `split_once` at two spaces. -/
def splitTwoSpaces : List Char → Option (List Char × List Char)
  | ' ' :: ' ' :: rest => some ([], rest)
  | c :: rest => (splitTwoSpaces rest).map fun parts => (c :: parts.1, parts.2)
  | [] => none

/-- Read a line of the checksums. -/
def checksumLine (line : List Char) : Except Error (Path × String) :=
  match splitTwoSpaces line with
  | none => .error (.process "invalid SHA256SUMS entry")
  | some (digest, path) =>
    match relativePath path with
    | none => .error (.process "invalid SHA256SUMS entry")
    | some path =>
      if digest.length = 64 ∧ digest.all isHexDigit then .ok (path, String.ofList digest)
      else .error (.process "invalid SHA256SUMS entry")

local instance lawfulBEqStrings : LawfulBEq (List String) := inferInstance

/-- Read the lines of the checksums; no path occurs twice. -/
def checksumLines : List (List Char) → List (Path × String) → Except Error (List (Path × String))
  | [], expected => .ok expected
  | line :: lines, expected =>
    match checksumLine line with
    | .error e => .error e
    | .ok (path, digest) =>
      if path ∈ expected.map Prod.fst then .error (.process "duplicate checksum entry")
      else checksumLines lines (expected ++ [(path, digest)])

/-- The digests that a checksum file expects. -/
def checksums (bytes : List UInt8) : Except Error (List (Path × String)) :=
  match String.fromUTF8? ⟨bytes.toArray⟩ with
  | none => .error (.process "stream did not contain valid UTF-8")
  | some text => checksumLines (textLines text.toList) []

/-! ## The manifest -/

namespace EngineManifest

/-- The version of QEMU. -/
def version (manifest : EngineManifest) : Except Error String :=
  let words := (manifest.qemuVersion.toList.splitOnP Char.isWhitespace).filter (· ≠ [])
  match (words.dropWhile (· ≠ "version".toList))[1]? with
  | some word => .ok (String.ofList word)
  | none => .error (.process "missing QEMU version")

/-- What a manifest must have before its executables are looked at. -/
def check (manifest : EngineManifest) : Except Error Unit :=
  match Id.new "engine track" manifest.trackId with
  | .error e => .error e
  | .ok _ =>
    if manifest.schemaVersion ≠ 1 ∨ manifest.dirtySource ∨ manifest.executables.entries = [] then
      .error (.process "engine requires a clean schema-version-1 manifest with executables")
    else if manifest.buildDigest.toList.length ≠ 64 ∨
        ¬ manifest.buildDigest.toList.all isHexDigit then
      .error (.process "invalid engine build digest")
    else .ok ()

/-- The architecture of a target: `strip_suffix("-softmmu")`. -/
def architecture (target : String) : Option (List Char) :=
  if "-softmmu".toList <:+ target.toList then
    some (target.toList.take (target.toList.length - "-softmmu".toList.length))
  else none

/-- Where the executable of a target is, and its digest. -/
def executable (manifest : EngineManifest) (target executable : String) :
    Except Error (Path × String) :=
  match architecture target with
  | none => .error (.process "invalid engine target")
  | some arch =>
    match relativePath executable.toList with
    | none => .error (.process "engine executable must be bin/qemu-system-<architecture>")
    | some path =>
      if relativePath ("bin/qemu-system-".toList ++ arch) ≠ some path then
        .error (.process "engine executable must be bin/qemu-system-<architecture>")
      else
        match manifest.executableSha256.get? target with
        | none => .error (.process "missing executable hash")
        | some digest => .ok ((writtenPath executable.toList).getD path, digest)

end EngineManifest

/-! ## Extraction -/

namespace ArchiveEntry

/-- The checks of an entry: its path is below the one directory of the archive, and it is a file or
a directory. -/
def accept (entry : ArchiveEntry) (name : Option String) :
    Except Error (Path × Option (List UInt8)) :=
  match writtenPath entry.path.toList with
  | none => .error (.process ("invalid archive path: " ++ entry.path))
  | some path =>
    if name.isSome ∧ name ≠ path.head? then
      .error (.process "archive must contain exactly one engine directory")
    else
      match entry.content with
      | .file bytes => .ok (path, some bytes)
      | .dir => .ok (path, none)
      | .other => .error (.process
          ("archive links and special files are unsupported: " ++ entry.path))

end ArchiveEntry

/-- Whether a file is there already. With a slash at the end of its path only a directory is. -/
def isDuplicate (staging path : Path) : Task Bool :=
  if trimmed path = path then exists_ (staging ++ path) else isDir (staging ++ trimmed path)

/-- Unpack a file or a directory. -/
def unpackIn (staging path : Path) : Option (List UInt8) → Task Unit
  | none => createDirAll (staging ++ trimmed path)
  | some bytes =>
    (isDuplicate staging path).bind fun there =>
      if there then .throw (.process "duplicate archive file")
      else
        (createDirAll (staging ++ (trimmed path).dropLast)).bind fun _ =>
          writeFile (staging ++ trimmed path) bytes

/-- Unpack an archive, and return its files and its directory. -/
def extract (staging : Path) : List (Except String ArchiveEntry) → List Path → Option String →
    Task (List Path × Option String)
  | [], files, name => .ret (files, name)
  | .error e :: _, _, _ => .throw (.process e)
  | .ok entry :: rest, files, name =>
    (ofExcept (entry.accept name)).bind fun (path, content) =>
      (unpackIn staging path content).bind fun _ =>
        extract staging rest (if content.isSome then files ++ [path] else files) path.head?

/-! ## Verification -/

/-- Source: `engine_import.rs` `hash`. -/
def engineHash (path : Path) : Task String := (readFile path).bind fun bytes => .ret (sha256 bytes)

/-- Compare the files of a bundle with the expected digests, and return those that are left. -/
def verify (bundle : Path) : List Path → List (Path × String) → Task (List (Path × String))
  | [], expected => .ret expected
  | file :: files, expected =>
    let relative := trimmed file.tail
    if relative = ["SHA256SUMS"] then verify bundle files expected
    else
      match expected.find? fun e => e.1 = relative with
      | none => .throw (.process ("missing checksum: " ++ String.intercalate "/" relative))
      | some (_, digest) =>
        (engineHash (bundle ++ file.tail)).bind fun actual =>
          if actual ≠ digest then
            .throw (.process ("checksum mismatch: " ++ String.intercalate "/" relative))
          else verify bundle files (expected.filter fun e => e.1 ≠ relative)

/-- Compare the executables of a bundle with their digests. -/
def checkExecutables (bundle : Path) (manifest : EngineManifest) :
    List (String × String) → Task Unit
  | [] => .ret ()
  | (target, executable) :: rest =>
    (ofExcept (manifest.executable target executable)).bind fun (path, expected) =>
      (engineHash (bundle ++ path)).bind fun actual =>
        if actual ≠ expected then .throw (.process "executable checksum mismatch")
        else checkExecutables bundle manifest rest

/-- A build that has been checked: its manifest, its version of QEMU and its checksum file. -/
structure EngineBuild where
  manifest : EngineManifest
  version : String
  sums : List UInt8

namespace EngineBuild

/-- The name of the directory of a build. -/
def identity (build : EngineBuild) : String := sha256 build.sums

/-- What the registry says about a build. -/
def config (build : EngineBuild) (destination : Path) : EngineConfig where
  path := destination
  version := some build.version
  buildDigest := some build.manifest.buildDigest
  target :=
    match build.manifest.executables.entries with
    | [e] => some e.1
    | _ => none

end EngineBuild

section Import

variable (self : Handle) (formats : EngineFormats)

/-- Check a bundle that was unpacked. -/
def checkBundle (bundle : Path) (files : List Path) : Task EngineBuild :=
  (readFile (bundle ++ ["SHA256SUMS"])).bind fun sums =>
    (ofExcept (checksums sums)).bind fun expected =>
      (verify bundle files expected).bind fun left =>
        if left ≠ [] then .throw (.process "checksum file names missing payload files")
        else
          (readFile (bundle ++ ["engine-build.json"])).bind fun bytes =>
            match formats.manifest bytes with
            | .error e => .throw (.process e)
            | .ok manifest =>
              (ofExcept manifest.check).bind fun _ =>
                (checkExecutables bundle manifest manifest.executables.entries).bind fun _ =>
                  (ofExcept manifest.version).bind fun version =>
                    .ret { manifest, version, sums }

/-! ## Publication -/

namespace Handle

/-- The directory of the engines. -/
def engines : Path := self.root ++ ["engines"]

/-- The registry. -/
def engineRegistry : Path := self.engines ++ ["registry.json"]

/-- The directory of a build. -/
def engineBuild (track identity : String) : Path := self.engines ++ [track, identity]

end Handle

/-- The name of a temporary file or directory. -/
def temporaryName (nanos : Nat) : String := ".tmp" ++ toString nanos

/-- Source: `engine_import.rs` `registered`. -/
def registered : Task EngineRegistry :=
  .ask fun o =>
    match o.fault with
    | some detail => .throw (.io (display self.engineRegistry) detail)
    | none => .act (.read self.engineRegistry) id fun s =>
      match s.files.look self.engineRegistry with
      | none => .ret SortedMap.empty
      | some (.file bytes) =>
        match formats.readRegistry bytes with
        | .ok registry => .ret registry
        | .error e => .throw (.process e)
      | some .dir => .throw (.io (display self.engineRegistry) "is a directory")

/-- A build that is installed already has the files of the bundle. -/
def compareInstalled (bundle destination : Path) : List Path → Task Unit
  | [] => .ret ()
  | file :: files =>
    (engineHash (destination ++ trimmed file.tail)).bind fun installed =>
      (engineHash (bundle ++ trimmed file.tail)).bind fun imported =>
        if installed ≠ imported then
          .throw (.process "installed engine was modified; refusing to reuse it")
        else compareInstalled bundle destination files

/-- Move the bundle to its place, or compare it with what is there. -/
def installEngine (bundle destination : Path) (files : List Path) : Task Unit :=
  (exists_ destination).bind fun there =>
    if there then compareInstalled bundle destination files
    else rename bundle destination destination

/-- Write the registry. -/
def writeRegistry (registry : EngineRegistry) : Task Unit :=
  clock.bind fun nanos =>
    let temporary := self.engines ++ [temporaryName nanos]
    (createNew temporary).bind fun _ =>
      onError
        ((writeAll temporary (formats.registry registry)).bind fun _ =>
          (sync temporary).bind fun _ =>
            rename temporary self.engineRegistry self.engineRegistry)
        (removeFile temporary)

/-- Publish a bundle. -/
def publishEngine (bundle : Path) (files : List Path) (build : EngineBuild) : Task EngineBuild :=
  let destination := self.engineBuild build.manifest.trackId build.identity
  (createDirAll (self.engines ++ [build.manifest.trackId])).bind fun _ =>
    (installEngine bundle destination files).bind fun _ =>
      (registered self formats).bind fun registry =>
        (writeRegistry self formats
          (registry.insert build.manifest.trackId (build.config destination))).bind fun _ =>
          .ret build

/-- What happens while the staging directory is there. -/
def importStaged (staging source : Path) : Task EngineBuild :=
  (readFile source).bind fun bytes =>
    (extract staging (formats.archive bytes) [] none).bind fun (files, name) =>
      match name with
      | none => .throw (.process "empty engine archive")
      | some name =>
        (checkBundle formats (staging ++ [name]) files).bind fun build =>
          publishEngine self formats (staging ++ [name]) files build

/-- Import an archive; the staging directory is removed in the end.
Source: `engine_import.rs` `import`. -/
def importEngine (source : Path) : Task EngineBuild :=
  (createDirAll self.engines).bind fun _ =>
    (canonicalize self.engines).bind fun _ =>
      clock.bind fun nanos =>
        let staging := self.engines ++ [temporaryName nanos]
        (change (.createDir staging) staging (·.createDir staging)).bind fun _ =>
          (importStaged self formats staging source).attempt.bind fun result =>
            (ignore (removeDirAll staging)).bind fun _ => ofExcept result

end Import

end MachineEmu
