import Mathlib.Data.List.Infix
import ReceiptVerifier.Basic
import ReceiptVerifier.Lib.Watched

/-!
# The PHP installer

`php/src/Install/Installer.php`. A run is watched: it moves the contents of the destination and of
the temporary file, and notes every step it takes on the disk. What the steps come to, the download
and the answers of the machine are the run's `World`; SHA-256, `parse_url` and `json_encode` are a
parameter (`Machine`).
-/

namespace ReceiptVerifier

namespace Php.Installer

/-- What an installation throws. -/
inductive Thrown
  /-- `InstallException`, by its text and its exit code. -/
  | install (message : String) (exitCode : Nat)
  /-- `curl_setopt_array` given no handle. -/
  | typeError
deriving DecidableEq, Repr

/-- The download or the pinned hash failed. -/
def FAILED : Nat := 1

/-- Nothing to install. -/
def UNAVAILABLE : Nat := 2

structure Machine where
  /-- `PHP_OS_FAMILY`. -/
  osFamily : String
  /-- `php_uname('m')`. -/
  uname : String
  /-- `hash('sha256', ..)`, in hex. -/
  sha256 : Bytes → String
  /-- The scheme and the host of `parse_url`. -/
  parseUrl : String → Option String × Option String
  /-- `json_encode` with invalid UTF-8 substituted and slashes as they are. -/
  jsonEncode : Bytes → String

/-! ## What is pinned -/

def REPOSITORY : String := "emindeniz99/apple-purchase-receipt-verifier"

def TARGETS : List (String × List (String × String)) :=
  [("Linux", [("x86_64", "x86_64-unknown-linux-musl"), ("aarch64", "aarch64-unknown-linux-musl"),
      ("arm64", "aarch64-unknown-linux-musl")]),
    ("Darwin", [("x86_64", "x86_64-apple-darwin"), ("arm64", "aarch64-apple-darwin"),
      ("aarch64", "aarch64-apple-darwin")]),
    ("Windows", [("AMD64", "x86_64-pc-windows-msvc"), ("x86_64", "x86_64-pc-windows-msvc"),
      ("ARM64", "aarch64-pc-windows-msvc")])]

def detectTarget (m : Machine) (os machine : Option String) : Option String :=
  (TARGETS.lookup (os.getD m.osFamily)).bind fun machines => machines.lookup (machine.getD m.uname)

/-- `str_contains($target, 'windows')`. -/
def isWindowsTarget (target : String) : Bool := decide ("windows".toList <:+: target.toList)

def assetName (target : String) : String :=
  "aprv-" ++ target ++ if isWindowsTarget target then ".exe" else ""

/-- The asset names of `TARGETS`. -/
def known : List String :=
  TARGETS.flatMap fun (_, machines) => machines.map fun (_, target) => assetName target

/-- A text of single bytes. -/
def latin1 (bytes : Bytes) : String := String.ofList (bytes.map fun b => Char.ofNat b.toNat)

def isHash (b : UInt8) : Bool := (0x30 ≤ b && b ≤ 0x39) || (0x61 ≤ b && b ≤ 0x66)

def isTag (b : UInt8) : Bool :=
  (0x30 ≤ b && b ≤ 0x39) || (0x41 ≤ b && b ≤ 0x5A) || (0x61 ≤ b && b ≤ 0x7A) ||
    b = 0x2E || b = 0x2B || b = 0x2D

/-- `\s`. -/
def isSpace (b : UInt8) : Bool := b = 0x20 || (0x09 ≤ b && b ≤ 0x0D)

/-- The hash, the tag and the asset of a line that `SUMS_LINE` matches. -/
def sumsLine (line : Bytes) : Option (String × String × Bytes) :=
  let hash := line.take 64
  if hash.length = 64 ∧ hash.all isHash then
    match line.drop 64 with
    | 0x20 :: 0x20 :: 0x76 :: path =>
      match path.span isTag with
      | (tag, 0x2F :: asset) =>
        if tag ≠ [] ∧ asset ≠ [] ∧ asset.all (fun b => b ≠ 0x2F ∧ !isSpace b) then
          some (latin1 hash, latin1 (0x76 :: tag), asset)
        else none
      | _ => none
    | _ => none
  else none

/-- The release tag, and the pinned SHA-256 by asset. -/
structure Sums where
  tag : Option String
  assets : List (String × String)
deriving DecidableEq, Repr

/-- One line of `SHA256SUMS`, the `index`-th. -/
def pinLine (m : Machine) (sumsPath : String) (index : Nat) (line : Bytes) (sums : Sums) :
    Except Thrown Sums :=
  let place := sumsPath ++ " line " ++ toString (index + 1)
  match sumsLine line with
  | none =>
    .error (.install (place ++ " is not `<sha256>  <tag>/<asset>` as sha256sum writes it: " ++
      m.jsonEncode line) UNAVAILABLE)
  | some (hash, lineTag, assetBytes) =>
    let asset := latin1 assetBytes
    if asset ∉ known then
      .error (.install (place ++ " names " ++ m.jsonEncode assetBytes ++
        ", which is not a release asset") UNAVAILABLE)
    else if sums.tag.any (· ≠ lineTag) then
      .error (.install (place ++ " names the tag " ++ lineTag ++ ", an earlier line " ++
        sums.tag.getD "") UNAVAILABLE)
    else if (sums.assets.lookup asset).isSome then
      .error (.install (place ++ " pins " ++ asset ++ " a second time") UNAVAILABLE)
    else .ok ⟨some lineTag, sums.assets ++ [(asset, hash)]⟩

def pinLines (m : Machine) (sumsPath : String) : Nat → List Bytes → Sums → Except Thrown Sums
  | _, [], sums => .ok sums
  | index, line :: lines, sums => do
    pinLines m sumsPath (index + 1) lines (← pinLine m sumsPath index line sums)

/-- `explode("\n", ..)`, without the newline at the end. -/
def sumsLines (text : Bytes) : List Bytes :=
  if text = [] then []
  else (if text.getLast? = some 0x0A then text.dropLast else text).splitOn 0x0A

/-- The pins of `SHA256SUMS`; `none` is no file, or one that cannot be read. -/
def pins (m : Machine) (sumsPath : String) : Option Bytes → Except Thrown Sums
  | none => .error (.install ("cannot read " ++ sumsPath) UNAVAILABLE)
  | some text => pinLines m sumsPath 0 (sumsLines text) ⟨none, []⟩

def strtolower (s : String) : String := String.ofList (s.toList.map Char.toLower)

/-- HTTPS anywhere; plain HTTP only to this machine. -/
def urlAllowed (m : Machine) (url : String) : Bool :=
  let scheme := strtolower ((m.parseUrl url).1.getD "")
  let host := strtolower ((m.parseUrl url).2.getD "")
  scheme = "https" || (scheme = "http" && host ∈ ["127.0.0.1", "localhost", "[::1]"])

/-! ## The disk -/

/-- A piece of the download, and how much of it `fwrite` takes; what it refuses counts as none. -/
structure Chunk where
  data : Bytes
  taken : Nat
deriving DecidableEq, Repr

/-- What the steps of a run come to: each may fail. -/
structure World where
  /-- `SHA256SUMS`, where it is a file and can be read. -/
  sums : Option Bytes
  /-- Whether `hash_file` can read the destination. -/
  readsFinal : Bool
  /-- `is_dir($directory)`, before and after `mkdir`. -/
  isDir : Bool
  mkdir : Bool
  isDirNow : Bool
  tempnam : Option String
  /-- `extension_loaded('curl')`. -/
  curl : Bool
  fopen : Bool
  curlInit : Bool
  /-- What the server sends, as far as curl reads it. -/
  chunks : List Chunk
  /-- `curl_exec`, where no piece was cut off. -/
  curlExec : Bool
  /-- `curl_error`. -/
  error : String
  /-- `CURLINFO_EFFECTIVE_URL`. -/
  effective : String
  /-- Whether `hash_file` can read the temporary file. -/
  readsTemporary : Bool
  chmod : Bool
  unlinksFinal : Bool
  renames : Bool
  unlinksTemporary : Bool

/-- The contents of the destination and of the temporary file; `none` is no file. -/
structure Files where
  final : Option Bytes
  temporary : Option Bytes
deriving DecidableEq, Repr

inductive Step
  | mkdir
  | tempnam
  | fopen
  | fwrite
  | fclose
  | chmod
  | unlinkFinal
  | rename
  | unlinkTemporary
deriving DecidableEq, Repr

/-- A step, whether it succeeded, and the files after it. -/
structure Event where
  step : Step
  succeeded : Bool
  files : Files
deriving DecidableEq, Repr

abbrev Action := Watched Files Event Thrown

/-- A step on the disk: it moves the files as `f` says, or fails and leaves them. It fails where
`f` has nothing to work on. -/
def attempt (step : Step) (succeeds : Bool) (f : Files → Option Files) : Action Bool :=
  .step fun files =>
    match if succeeds then f files else none with
    | some files' => (true, files', ⟨step, true, files'⟩)
    | none => (false, files, ⟨step, false, files⟩)

/-- `is_file($final)`. -/
def isFinal : Action Bool := .look fun files => files.final.isSome

/-- `is_file($temporary)`. -/
def isTemporary : Action Bool := .look fun files => files.temporary.isSome

variable (m : Machine) (w : World)

/-- `hash_file('sha256', $final)`; `none` is `false`. -/
def hashFinal : Action (Option String) :=
  .look fun files => if w.readsFinal then files.final.map m.sha256 else none

def hashTemporary : Action (Option String) :=
  .look fun files => if w.readsTemporary then files.temporary.map m.sha256 else none

def mkdir : Action Bool := attempt .mkdir w.mkdir some

/-- A new file, readable by its owner only. -/
def tempnam : Action (Option String) := do
  let made ← attempt .tempnam w.tempnam.isSome fun files => some { files with temporary := some [] }
  pure (if made then w.tempnam else none)

def chmod : Action Bool := attempt .chmod w.chmod some

def unlinkFinal : Action Bool :=
  attempt .unlinkFinal w.unlinksFinal fun files =>
    files.final.map fun _ => { files with final := none }

/-- In one step, or not at all. -/
def rename : Action Bool :=
  attempt .rename w.renames fun files => files.temporary.map fun bytes => ⟨some bytes, none⟩

def unlinkTemporary : Action Bool :=
  attempt .unlinkTemporary w.unlinksTemporary fun files =>
    files.temporary.map fun _ => { files with temporary := none }

/-! ## The download -/

/-- No release binary is larger than this. -/
def MAX_BYTES : Nat := 64 * 1024 * 1024

def fopen : Action Bool :=
  attempt .fopen w.fopen fun files => some { files with temporary := some [] }

/-- `(int) fwrite($file, $data)`. -/
def fwrite (c : Chunk) : Action Nat :=
  .step fun files =>
    let piece := c.data.take c.taken
    let files' := { files with temporary := files.temporary.map (· ++ piece) }
    (piece.length, files', ⟨.fwrite, piece.length = c.data.length, files'⟩)

/-- Nothing moves: the bytes are on the disk. -/
def fclose : Action Unit := do
  let _ ← attempt .fclose true some
  pure ()

/-- `CURLOPT_WRITEFUNCTION`: what it returns, and `$written` after it. -/
def writeFunction (c : Chunk) (written : Nat) : Action (Nat × Nat) :=
  if MAX_BYTES < written + c.data.length then pure (0, written + c.data.length)
  else do
    let taken ← fwrite c
    pure (taken, written + c.data.length)

/-- The pieces in order, until the write function returns other than the length of one: whether
none was cut off, and `$written`. -/
def receive : List Chunk → Nat → Action (Bool × Nat)
  | [], written => pure (true, written)
  | c :: chunks, written => do
    let (returned, written) ← writeFunction c written
    if returned = c.data.length then receive chunks written else pure (false, written)

/-- The `try` of `download`. -/
def transfer (url : String) : Action Unit := do
  .throwIf (w.curlInit = false) .typeError
  let (whole, written) ← receive w.chunks 0
  .throwIf (MAX_BYTES < written)
    (.install ("the download is larger than " ++ toString MAX_BYTES ++ " bytes: cut off") FAILED)
  .throwIf ((whole && w.curlExec) = false)
    (.install ("cannot download " ++ url ++ ": " ++ w.error) FAILED)
  .throwIf (urlAllowed m w.effective = false)
    (.install ("the download was redirected to a URL that is not https: " ++ w.effective) FAILED)

def download (url destination : String) : Action Unit := do
  .throwIf (w.curl = false)
    (.install "aprv-install needs ext-curl to download the binary" UNAVAILABLE)
  let opened ← fopen w
  .throwIf (opened = false) (.install ("cannot write " ++ destination) FAILED)
  (transfer m w url).ensuring fclose

/-! ## The installation -/

structure Arguments where
  sumsPath : String
  directory : String
  baseUrl : Option String
  target : Option String
  force : Bool
  platform : Option (String × String)

/-- What is to be installed, where it comes from and the SHA-256 it has to have. -/
structure Choice where
  target : String
  asset : String
  pinned : String
  url : String
deriving DecidableEq, Repr

/-- The start of `install`, which touches no file. -/
def choose (a : Arguments) : Except Thrown Choice := do
  let sums ← pins m a.sumsPath w.sums
  let os := a.platform.map (·.1)
  let machine := a.platform.map (·.2)
  match a.target <|> detectTarget m os machine with
  | none =>
    .error (.install ("no aprv binary is published for " ++ os.getD m.osFamily ++ " " ++
      machine.getD m.uname ++ ". Run an aprv server where a binary exists (Docker image or " ++
      "binary) and pass HttpTransport('http://host:8080', $token) to Verifier::create().")
      UNAVAILABLE)
  | some target =>
    let asset := assetName target
    match sums.tag, sums.assets.lookup asset with
    | none, _ =>
      .error (.install ("SHA256SUMS pins nothing: this checkout has no release binaries. Use " ++
        "HttpTransport with an aprv server, or install a released version of the package.")
        UNAVAILABLE)
    | some _, none =>
      .error (.install
        ("SHA256SUMS pins no SHA-256 for " ++ asset ++ ": no binary is pinned for " ++
        "this platform, only the Linux ones. Run an aprv server (aprv serve, or the Docker " ++
        "image) and pass HttpTransport('http://host:8080', $token) to Verifier::create().")
        UNAVAILABLE)
    | some tag, some pinned =>
      let url := a.baseUrl.getD ("https://github.com/" ++ REPOSITORY ++ "/releases/download/" ++
        tag) ++ "/" ++ asset
      if urlAllowed m url = false then
        .error (.install ("the download URL must be https, or http to loopback: " ++ url)
          UNAVAILABLE)
      else .ok ⟨target, asset, pinned, url⟩

/-- `rtrim($directory, '/\\')`. -/
def rtrim (directory : String) : String :=
  String.ofList (directory.toList.reverse.dropWhile fun c => c = '/' || c = '\\').reverse

/-- The path of the destination. -/
def finalPath (directory target : String) : String :=
  rtrim directory ++ (if m.osFamily = "Windows" then "\\" else "/") ++
    if isWindowsTarget target then "aprv.exe" else "aprv"

/-- Whether the destination is a file of the pinned hash already, and that is enough. -/
def installed (force : Bool) (pinned : String) : Action Bool :=
  if force then pure false
  else do
    if ← isFinal then
      let actual ← hashFinal m w
      pure (actual = some pinned)
    else pure false

def makeDirectory (directory : String) : Action Unit :=
  if w.isDir then pure ()
  else do
    let made ← mkdir w
    .throwIf (made = false ∧ w.isDirNow = false)
      (.install ("cannot create " ++ directory) FAILED)

/-- What is done to the files right before the rename. -/
def makeReady : Action Unit :=
  if m.osFamily ≠ "Windows" then do
    let _ ← chmod w
    pure ()
  else do
    if ← isFinal then
      let _ ← unlinkFinal w
      pure ()
    else pure ()

/-- The `try` of `install`. -/
def replace (c : Choice) (final temporary : String) : Action Unit := do
  download m w c.url temporary
  let actual ← hashTemporary m w
  .throwIf (actual ≠ some c.pinned)
    (.install ("the download of " ++ c.asset ++ " has SHA-256 " ++ actual.getD "unreadable" ++
      ", SHA256SUMS pins " ++ c.pinned ++ ": nothing was installed") FAILED)
  makeReady m w
  let moved ← rename w
  .throwIf (moved = false) (.install ("cannot move the binary to " ++ final) FAILED)

/-- The `finally` of `install`. -/
def cleanUp : Action Unit := do
  if ← isTemporary then
    let _ ← unlinkTemporary w
    pure ()
  else pure ()

def install (a : Arguments) : Action String := do
  let c ← .lift (choose m w a)
  let final := finalPath m a.directory c.target
  if ← installed m w a.force c.pinned then
    pure ("aprv is already installed at " ++ final ++ " (SHA-256 " ++ c.pinned ++ ")")
  else do
    makeDirectory w a.directory
    match ← tempnam w with
    | none => .lift (.error (.install ("cannot write in " ++ a.directory) FAILED))
    | some temporary => do
      (replace m w c final temporary).ensuring (cleanUp w)
      pure ("installed " ++ c.asset ++ " at " ++ final ++ " (SHA-256 " ++ c.pinned ++ ")")

/-- A run of `install` where the destination holds `before`. -/
def run (a : Arguments) (before : Option Bytes) : Ended Files Event Thrown String :=
  install m w a ⟨before, none⟩

end Php.Installer

end ReceiptVerifier
