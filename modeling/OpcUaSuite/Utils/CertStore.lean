import OpcUaSuite.Js.Object
import OpcUaSuite.Lib.Effect
import OpcUaSuite.Lib.FileTree
import OpcUaSuite.Lib.PosixPath

/-!
# Certificate store

cert-store: the helpers on the certificate directory and the routes of the editor.
A handler runs from its first call on the disk to its last without an interruption,
so a request is one step.
-/

namespace OpcUaSuite.CertStore

open Js ByteCodec

/-- The directory tree the process sees: without links, with names that are compared exactly. -/
abbrev Disk := FileTree JsString Bytes

abbrev posix : PosixPath.Alphabet UInt16 := ⟨47, 46, by decide⟩

/-- What the runtime and the operating system add: the text of `String(v)` for an array or
an object, the texts of errors, the working directory, and the order in which a directory
is listed. -/
structure Machine where
  host : Host
  stringOf : JsValue → Except JsString JsString
  errorText : RuntimeError → JsString
  osText : FileTree.Errno → JsString → JsString
  cwd : List JsString
  order : List JsString → List JsString
  order_perm : ∀ names, (order names).Perm names

/-- What goes wrong on the disk during a request: a write that is refused, or breaks after
some bytes; an unlink that is refused; a directory or an entry that cannot be read. -/
structure Faults where
  write : Option (JsString × Option Nat)
  unlink : Option JsString
  readdir : Bool
  access : Bool

def Faults.none : Faults := ⟨.none, .none, false, false⟩

/-- An error with the `status` it may carry. -/
structure HttpError where
  status : Option Nat
  message : JsString

variable (m : Machine)

def Machine.place (p : JsString) : List JsString := PosixPath.place posix m.cwd p

def Machine.toString : JsValue → Except JsString JsString
  | .array items => m.stringOf (.array items)
  | .object props => m.stringOf (.object props)
  | v => .ok (m.host.toText v)

/-! ## Calls on the disk -/

def existsSync (faults : Faults) (p : JsString) (d : Disk) : Bool :=
  !faults.access && (FileTree.entry d (m.place p)).isSome

/-- A write that breaks leaves the bytes that were written, where the file could be opened. -/
def writeFileSync (faults : Faults) (p : JsString) (buf : Bytes) : Effect HttpError Disk Unit :=
  fun d =>
    match faults.write, FileTree.writeFile (m.place p) buf d with
    | .none, .ok d' => (.ok (), d')
    | .none, .error e => (.error ⟨some 500, m.osText e p⟩, d)
    | some (message, .none), _ => (.error ⟨some 500, message⟩, d)
    | some (message, some kept), _ =>
        (.error ⟨some 500, message⟩,
          match FileTree.writeFile (m.place p) (buf.take kept) d with
          | .ok d' => d'
          | .error _ => d)

def unlinkSync (faults : Faults) (p : JsString) : Effect HttpError Disk Unit :=
  fun d =>
    match faults.unlink, FileTree.removeFile (m.place p) d with
    | .none, .ok d' => (.ok (), d')
    | .none, .error e => (.error ⟨some 500, m.osText e p⟩, d)
    | some message, _ => (.error ⟨some 500, message⟩, d)

/-- The names in a directory, nothing where it cannot be read. -/
def readdirSync (faults : Faults) (p : JsString) (d : Disk) : Option (List JsString) :=
  if faults.readdir ∨ p = [] then none
  else if FileTree.entry d (m.place p) = some .directory then
    some (m.order (FileTree.names (m.place p) d))
  else none

/-! ## Helpers -/

/-- A character that `FILENAME_REGEX` leaves in place. -/
def keptInFilename (u : UInt16) : Bool :=
  decide (97 ≤ u ∧ u ≤ 122) || decide (65 ≤ u ∧ u ≤ 90) || decide (48 ≤ u ∧ u ≤ 57) ||
    decide (u = 46) || decide (u = 95) || decide (u = 45)

/-- The characters outside `FILENAME_REGEX` become underscores; what names a directory
becomes the default. -/
def safeText (text : JsString) : JsString :=
  let safe := text.map fun u => if keptInFilename u then u else 95
  if safe = js "." ∨ safe = js ".." ∨ safe = [] then js "cert.pem" else safe

def sanitiseFilename (name : JsValue) : Except JsString JsString :=
  (m.toString (if name.truthy then name else .str (js "cert.pem"))).map safeText

def foldCase (u : UInt16) : UInt16 := if 65 ≤ u ∧ u ≤ 90 then u + 32 else u

/-- `ALLOWED_EXT_REGEX`. -/
def allowedExt (name : JsString) : Bool :=
  [js ".pem", js ".der", js ".crt", js ".key", js ".pfx", js ".p12"].any
    fun ext => decide (ext <:+ name.map foldCase)

/-- `userDir` is the setting, where it is set. -/
def certsDirOf (userDir : JsString) : JsString :=
  PosixPath.join posix [if userDir = [] then js "/data" else userDir, js "opcua-certs"]

/-- Errors of the call that makes the directory are swallowed. -/
def getCertsDir (userDir : JsString) (faults : Faults) (mkdirRefused : Bool) (d : Disk) :
    JsString × Disk :=
  let dir := certsDirOf userDir
  if existsSync m faults dir d || mkdirRefused then (dir, d)
  else (dir, FileTree.makeDirectories [] (m.place dir) d)

def listCerts (faults : Faults) (certsDir : JsString) (d : Disk) : List JsString :=
  match readdirSync m faults certsDir d with
  | some entries => entries.filter allowedExt
  | none => []

def missingContent : HttpError := ⟨some 400, js "Missing content"⟩

def unsupportedType : HttpError :=
  ⟨some 400, js "Unsupported certificate file type (allowed: .pem, .der, .crt, .key, .pfx, .p12)"⟩

def fileNotFound : HttpError := ⟨some 404, js "File not found"⟩

/-- An error of a conversion carries no status. -/
def unstated {α : Type} (r : Except JsString α) : Except HttpError α :=
  r.mapError fun message => ⟨none, message⟩

structure Uploaded where
  path : JsString
  bytes : Nat

def uploadCert (faults : Faults) (certsDir : JsString) (filename base64Content : JsValue) :
    Effect HttpError Disk Uploaded := do
  Effect.require base64Content.truthy missingContent
  let safeName ← Effect.lift (unstated (sanitiseFilename m filename))
  Effect.require (allowedExt safeName) unsupportedType
  let destPath := PosixPath.join posix [certsDir, safeName]
  let buf ← Effect.lift (unstated ((m.host.bufferBase64 base64Content).mapError m.errorText))
  writeFileSync m faults destPath buf
  return ⟨destPath, buf.length⟩

def deleteCert (faults : Faults) (certsDir : JsString) (filename : JsValue) :
    Effect HttpError Disk Unit := do
  let safeName ← Effect.lift (unstated (sanitiseFilename m filename))
  let filePath := PosixPath.join posix [certsDir, safeName]
  let found ← Effect.query fun d => .ok (existsSync m faults filePath d)
  Effect.require found fileNotFound
  unlinkSync m faults filePath

/-! ## Routes -/

inductive Scope
  | flowsRead
  | flowsWrite
deriving DecidableEq

/-- What a client of the admin interface sends to one of the three routes. -/
inductive Request
  | upload (body : JsValue)
  | certs
  | delete (filename : JsValue)

inductive Reply
  | uploaded (path filename : JsString) (size : Nat)
  | listed (files : List (JsString × JsString))
  | deleted
  | refused (status : Nat) (error : JsString)
  | denied

def Request.scope : Request → Scope
  | .upload _ | .delete _ => .flowsWrite
  | .certs => .flowsRead

/-- `permission`: without an authorisation of Node-RED every request passes. -/
def permission {κ : Type} (needsPermission : Option (Scope → κ → Bool)) (scope : Scope) (user : κ) :
    Bool :=
  match needsPermission with
  | some admits => admits scope user
  | none => true

/-- A member of the request's body; a body that is no plain object leaves it to the host. -/
def bodyMember (body : JsValue) (key : JsString) : JsValue :=
  match body with
  | .object props => (Props.get? key props).getD (m.host.inherited body key)
  | v => if v.truthy then m.host.inherited v key else .undefined

def uploadReply : Except HttpError Uploaded → Reply
  | .ok result => .uploaded result.path (PosixPath.basename posix result.path) result.bytes
  | .error e => .refused (e.status.getD 400) e.message

def deleteReply : Except HttpError Unit → Reply
  | .ok _ => .deleted
  | .error e => .refused (e.status.getD 500) e.message

/-- What a handler answers, with the disk behind it. -/
def handle (certsDir : JsString) (faults : Faults) (request : Request) (d : Disk) : Reply × Disk :=
  match request with
  | .upload body =>
      Prod.map uploadReply id (uploadCert m faults certsDir (bodyMember m body (js "filename"))
        (bodyMember m body (js "content")) d)
  | .certs =>
      (.listed ((listCerts m faults certsDir d).map fun f =>
        (f, PosixPath.join posix [certsDir, f])), d)
  | .delete filename => Prod.map deleteReply id (deleteCert m faults certsDir filename d)

/-- A request with who sends it and what the disk does to it. -/
structure Visit (κ : Type) where
  user : κ
  request : Request
  faults : Faults

def Visit.Admitted {κ : Type} (needsPermission : Option (Scope → κ → Bool)) (v : Visit κ) : Prop :=
  permission needsPermission v.request.scope v.user = true

/-- A request behind the permission its route is registered with. -/
def serve {κ : Type} (needsPermission : Option (Scope → κ → Bool)) (certsDir : JsString)
    (v : Visit κ) (d : Disk) : Reply × Disk :=
  if permission needsPermission v.request.scope v.user then handle m certsDir v.faults v.request d
  else (.denied, d)

/-- The answers to a sequence of requests, with the disk behind them. -/
def session {κ : Type} (needsPermission : Option (Scope → κ → Bool)) (certsDir : JsString) :
    List (Visit κ) → Disk → List Reply × Disk
  | [], d => ([], d)
  | v :: visits, d =>
      let (reply, d') := serve m needsPermission certsDir v d
      let (replies, last) := session needsPermission certsDir visits d'
      (reply :: replies, last)

end OpcUaSuite.CertStore
