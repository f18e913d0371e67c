import OpcUaSuite.Utils.CertFiles

/-!
# The certificate routes as a store

As long as the disk does what it is asked, the routes are a store of files by name:
an upload puts a file under its sanitised name, a deletion takes it away, and the
list shows the names with an extension that is allowed.
-/

namespace OpcUaSuite.CertStore

open Js ByteCodec

variable (m : Machine) {κ : Type}

/-! ## The store -/

/-- Files by name. -/
abbrev Shelf := JsString → Option Bytes

/-- What a request comes to behind its checks. -/
inductive Order
  | put (name : JsString) (bytes : Bytes)
  | take (name : JsString)
  | look

def Request.order : Request → Except HttpError Order
  | .upload body =>
      (uploadOrder m (bodyMember m body (js "filename")) (bodyMember m body (js "content"))).map
        fun p => .put p.1 p.2
  | .certs => .ok .look
  | .delete filename => (unstated (sanitiseFilename m filename)).map .take

/-- The status of an error that carries none. -/
def Request.defaultStatus : Request → Nat
  | .upload _ => 400
  | .certs | .delete _ => 500

def pathOf (certsDir name : JsString) : JsString := PosixPath.join posix [certsDir, name]

/-- How a store of files by name carries out an order. -/
def Shelf.Does (certsDir : JsString) (shelf : Shelf) : Order → Reply → Shelf → Prop
  | .put name bytes, reply, shelf' =>
      reply = .uploaded (pathOf certsDir name) name bytes.length ∧
        shelf' = Function.update shelf name (some bytes)
  | .take name, reply, shelf' =>
      if shelf name = none then
        reply = .refused 404 (js "File not found") ∧ shelf' = shelf
      else reply = .deleted ∧ shelf' = Function.update shelf name none
  | .look, reply, shelf' =>
      shelf' = shelf ∧ ∃ names : List JsString,
        reply = .listed (names.map fun name => (name, pathOf certsDir name)) ∧
        names.Nodup ∧ ∀ name, name ∈ names ↔ allowedExt name = true ∧ shelf name ≠ none

/-- A request that asks for nothing that can be done is refused. -/
def Shelf.Serves (certsDir : JsString) (shelf : Shelf) (request : Request) (reply : Reply)
    (shelf' : Shelf) : Prop :=
  match request.order m with
  | .ok order => shelf.Does certsDir order reply shelf'
  | .error e =>
      reply = .refused (e.status.getD request.defaultStatus) e.message ∧ shelf' = shelf

def Shelf.Session (needsPermission : Option (Scope → κ → Bool)) (certsDir : JsString) :
    Shelf → List (Visit κ) → List Reply → Shelf → Prop
  | shelf, [], replies, last => replies = [] ∧ last = shelf
  | shelf, v :: visits, replies, last =>
      ∃ reply rest shelf', replies = reply :: rest ∧
        (if permission needsPermission v.request.scope v.user then
          shelf.Serves m certsDir v.request reply shelf'
        else reply = .denied ∧ shelf' = shelf) ∧
        Shelf.Session needsPermission certsDir shelf' visits rest last

/-! ## The directory -/

/-- The files of the certificate directory. -/
def shelfOf (certsDir : JsString) (d : Disk) : Shelf := fun name =>
  match FileTree.entry d (m.place certsDir ++ [name]) with
  | some (.file bytes) => some bytes
  | _ => none

/-- The certificate directory is there and holds files only. -/
structure Ready (certsDir : JsString) (d : Disk) : Prop where
  named : certsDir ≠ []
  directory : FileTree.entry d (m.place certsDir) = some .directory
  flat : ∀ name, FileTree.entry d (m.place certsDir ++ [name]) ≠ some .directory
  nodup : (InsertionMap.keys d).Nodup

variable {m} {certsDir : JsString} {d : Disk}

theorem shelfOf_eq_none (h : Ready m certsDir d) (name : JsString) :
    shelfOf m certsDir d name = none ↔ FileTree.entry d (m.place certsDir ++ [name]) = none := by
  unfold shelfOf
  cases hentry : FileTree.entry d (m.place certsDir ++ [name]) with
  | none => exact iff_of_true rfl rfl
  | some x =>
      cases x with
      | file bytes => simp
      | directory => exact absurd hentry (h.flat name)

theorem concat_ne (dir : List JsString) (name : JsString) : dir ++ [name] ≠ [] :=
  List.append_ne_nil_of_right_ne_nil dir (List.cons_ne_nil name [])

theorem shelfOf_set (name : JsString) (bytes : Bytes) :
    shelfOf m certsDir (InsertionMap.set (m.place certsDir ++ [name]) (.file bytes) d) =
      Function.update (shelfOf m certsDir d) name (some bytes) := by
  funext other
  by_cases h : other = name
  · subst h
    rw [Function.update_self, shelfOf, FileTree.entry_set_self (concat_ne _ _)]
  · have hne : m.place certsDir ++ [other] ≠ m.place certsDir ++ [name] := fun heq =>
      h (List.singleton_inj.mp (List.append_cancel_left heq))
    rw [Function.update_of_ne h, shelfOf, FileTree.entry_set_of_ne hne]
    rfl

theorem shelfOf_erase (name : JsString) :
    shelfOf m certsDir (InsertionMap.erase (m.place certsDir ++ [name]) d) =
      Function.update (shelfOf m certsDir d) name none := by
  funext other
  by_cases h : other = name
  · subst h
    rw [Function.update_self, shelfOf, FileTree.entry_erase_self (concat_ne _ _)]
  · have hne : m.place certsDir ++ [other] ≠ m.place certsDir ++ [name] := fun heq =>
      h (List.singleton_inj.mp (List.append_cancel_left heq))
    rw [Function.update_of_ne h, shelfOf, FileTree.entry_erase_of_ne hne]
    rfl

theorem place_ne_concat (dir : List JsString) (name : JsString) : dir ≠ dir ++ [name] := fun h =>
  List.cons_ne_nil name [] (List.append_right_eq_self.mp h.symm)

theorem Ready.set (h : Ready m certsDir d) (name : JsString) (bytes : Bytes) :
    Ready m certsDir (InsertionMap.set (m.place certsDir ++ [name]) (.file bytes) d) := by
  refine ⟨h.named, ?_, fun other => ?_, InsertionMap.nodup_set h.nodup⟩
  · rw [FileTree.entry_set_of_ne (place_ne_concat _ _)]
    exact h.directory
  · by_cases heq : m.place certsDir ++ [other] = m.place certsDir ++ [name]
    · rw [heq, FileTree.entry_set_self (concat_ne _ _), ne_eq, Option.some.injEq]
      intro hfile
      cases hfile
    · rw [FileTree.entry_set_of_ne heq]
      exact h.flat other

theorem Ready.erase (h : Ready m certsDir d) (name : JsString) :
    Ready m certsDir (InsertionMap.erase (m.place certsDir ++ [name]) d) := by
  refine ⟨h.named, ?_, fun other => ?_, InsertionMap.nodup_filter h.nodup⟩
  · rw [FileTree.entry_erase_of_ne (place_ne_concat _ _)]
    exact h.directory
  · by_cases heq : m.place certsDir ++ [other] = m.place certsDir ++ [name]
    · rw [heq, FileTree.entry_erase_self (concat_ne _ _)]
      intro hnone
      cases hnone
    · rw [FileTree.entry_erase_of_ne heq]
      exact h.flat other

/-! ## The routes carry out the orders -/

theorem writeFileSync_calm (h : Ready m certsDir d) {name : JsString} (hname : SafeName name)
    (bytes : Bytes) :
    writeFileSync m .none (pathOf certsDir name) bytes d =
      (.ok (), InsertionMap.set (m.place certsDir ++ [name]) (.file bytes) d) := by
  have hwrite : FileTree.writeFile (m.place (pathOf certsDir name)) bytes d =
      .ok (InsertionMap.set (m.place certsDir ++ [name]) (.file bytes) d) := by
    rw [pathOf, place_of_safe m certsDir hname]
    exact FileTree.writeFile_of_directory h.directory (h.flat name) bytes
  unfold writeFileSync
  rw [hwrite]
  rfl

theorem upload_serves (h : Ready m certsDir d) (body : JsValue) :
    let result := handle m certsDir .none (.upload body) d
    Ready m certsDir result.2 ∧
      (shelfOf m certsDir d).Serves m certsDir (.upload body) result.1 (shelfOf m certsDir result.2) := by
  unfold Shelf.Serves Request.order handle
  dsimp only
  rw [uploadCert_eq]
  cases horder : uploadOrder m (bodyMember m body (js "filename")) (bodyMember m body (js "content")) with
  | error e => exact ⟨h, rfl, rfl⟩
  | ok order =>
      obtain ⟨name, bytes⟩ := order
      have hname := safeName_of_sanitised m (sanitised_of_uploadOrder horder).1
      have hwrite := writeFileSync_calm h hname bytes
      unfold pathOf at hwrite
      dsimp only
      rw [hwrite]
      refine ⟨h.set name bytes, ?_, shelfOf_set name bytes⟩
      change Reply.uploaded _ (PosixPath.basename posix _) _ = _
      rw [PosixPath.basename_join certsDir hname.isName]
      rfl

theorem delete_serves (h : Ready m certsDir d) (filename : JsValue) :
    let result := handle m certsDir .none (.delete filename) d
    Ready m certsDir result.2 ∧ (shelfOf m certsDir d).Serves m certsDir (.delete filename) result.1
      (shelfOf m certsDir result.2) := by
  unfold Shelf.Serves Request.order handle
  dsimp only
  rw [deleteCert_eq]
  cases hsanitise : sanitiseFilename m filename with
  | error e => exact ⟨h, rfl, rfl⟩
  | ok name =>
      have hname := safeName_of_sanitised m hsanitise
      have hplace := place_of_safe m certsDir hname
      have hthere : existsSync m .none (PosixPath.join posix [certsDir, name]) d =
          (FileTree.entry d (m.place certsDir ++ [name])).isSome := by
        rw [existsSync, hplace]
        rfl
      have hnone := shelfOf_eq_none h name
      simp only [unstated, Except.mapError, Except.map, Shelf.Does, hthere]
      cases hentry : FileTree.entry d (m.place certsDir ++ [name]) with
      | none =>
          rw [if_pos (hnone.mpr hentry)]
          exact ⟨h, rfl, rfl⟩
      | some x =>
          cases x with
          | directory => exact absurd hentry (h.flat name)
          | file bytes =>
              have hunlink : unlinkSync m .none (PosixPath.join posix [certsDir, name]) d =
                  (.ok (), InsertionMap.erase (m.place certsDir ++ [name]) d) := by
                unfold unlinkSync
                rw [hplace, FileTree.removeFile_of_file hentry]
                rfl
              have hshelf : shelfOf m certsDir d name ≠ none := by
                intro hempty
                rw [hnone.mp hempty] at hentry
                cases hentry
              rw [if_neg hshelf, Option.isSome_some, if_pos rfl, hunlink]
              exact ⟨h.erase name, rfl, shelfOf_erase name⟩

theorem certs_serves (h : Ready m certsDir d) :
    (shelfOf m certsDir d).Serves m certsDir .certs (handle m certsDir .none .certs d).1
      (shelfOf m certsDir d) := by
  have hlist : listCerts m .none certsDir d =
      (m.order (FileTree.names (m.place certsDir) d)).filter allowedExt := by
    have hnamed : ¬(Faults.none.readdir = true ∨ certsDir = []) :=
      not_or.mpr ⟨Bool.false_ne_true, h.named⟩
    unfold listCerts readdirSync
    rw [if_neg hnamed, if_pos h.directory]
  refine ⟨rfl, listCerts m .none certsDir d, rfl, ?_, fun name => ?_⟩
  · rw [hlist]
    exact ((m.order_perm _).nodup_iff.mpr (FileTree.nodup_names h.nodup _)).filter _
  · rw [hlist, List.mem_filter, (m.order_perm _).mem_iff, FileTree.mem_names, and_comm, ne_eq, ne_eq,
      shelfOf_eq_none h]

/-- One request does to the directory what it does to the store. -/
theorem handle_serves (h : Ready m certsDir d) (request : Request) :
    Ready m certsDir (handle m certsDir .none request d).2 ∧
      (shelfOf m certsDir d).Serves m certsDir request (handle m certsDir .none request d).1
        (shelfOf m certsDir (handle m certsDir .none request d).2) := by
  cases request with
  | upload body => exact upload_serves h body
  | certs => exact ⟨h, certs_serves h⟩
  | delete filename => exact delete_serves h filename

theorem session_serves (needsPermission : Option (Scope → κ → Bool)) {visits : List (Visit κ)}
    (hcalm : ∀ v ∈ visits, v.faults = .none) (h : Ready m certsDir d) :
    Shelf.Session m needsPermission certsDir (shelfOf m certsDir d) visits
      (session m needsPermission certsDir visits d).1
      (shelfOf m certsDir (session m needsPermission certsDir visits d).2) := by
  induction visits generalizing d with
  | nil => exact ⟨rfl, rfl⟩
  | cons v visits ih =>
      have hserve : Ready m certsDir (serve m needsPermission certsDir v d).2 ∧
          (if permission needsPermission v.request.scope v.user then
            (shelfOf m certsDir d).Serves m certsDir v.request
              (serve m needsPermission certsDir v d).1
              (shelfOf m certsDir (serve m needsPermission certsDir v d).2)
          else (serve m needsPermission certsDir v d).1 = .denied ∧
            shelfOf m certsDir (serve m needsPermission certsDir v d).2 = shelfOf m certsDir d) := by
        unfold serve
        rw [hcalm v List.mem_cons_self]
        split
        next hadmitted => exact handle_serves h v.request
        next hdenied => exact ⟨h, rfl, rfl⟩
      exact ⟨_, _, _, rfl, hserve.2, ih (fun w hw => hcalm w (List.mem_cons_of_mem v hw)) hserve.1⟩

/-! ## From the start of the process -/

/-- The directory the routes are registered with is there afterwards, unless a file is in the
way. -/
theorem ready_getCertsDir (userDir : JsString)
    (hclear : FileTree.Clear d [] (m.place (certsDirOf userDir)))
    (hflat : ∀ name, FileTree.entry d (m.place (certsDirOf userDir) ++ [name]) ≠ some .directory)
    (hnodup : (InsertionMap.keys d).Nodup) :
    Ready m (certsDirOf userDir) (getCertsDir m userDir .none false d).2 := by
  have hname : posix.IsName (js "opcua-certs") :=
    ⟨by decide, by decide, by decide, by decide⟩
  have hnamed : certsDirOf userDir ≠ [] := by
    intro hnil
    have hbase := PosixPath.basename_join (if userDir = [] then js "/data" else userDir) hname
    rw [show PosixPath.join posix [if userDir = [] then js "/data" else userDir, js "opcua-certs"] = []
      from hnil] at hbase
    exact absurd hbase (by decide)
  have hplace : m.place (certsDirOf userDir) ≠ [] := by
    rw [certsDirOf, Machine.place, PosixPath.place_join m.cwd _ hname]
    exact concat_ne _ _
  unfold getCertsDir existsSync
  simp only [Faults.none, Bool.not_false, Bool.true_and, Bool.or_false]
  split
  next hthere =>
    refine ⟨hnamed, ?_, hflat, hnodup⟩
    obtain ⟨x, hx⟩ := Option.isSome_iff_exists.mp hthere
    cases x with
    | directory => exact hx
    | file bytes => exact absurd hx (hclear _ bytes List.prefix_rfl hplace)
  next =>
    refine ⟨hnamed, FileTree.entry_makeDirectories hclear rfl, fun name => ?_,
      FileTree.nodup_makeDirectories hnodup⟩
    dsimp only
    rw [FileTree.entry_makeDirectories_of_not_prefix]
    · exact hflat name
    · intro hprefix
      have hlength := hprefix.length_le
      rw [List.length_append, List.length_singleton, List.nil_append] at hlength
      omega

/-- From the start of the process on, the routes answer as a store of files by name does. -/
theorem routes_refine (needsPermission : Option (Scope → κ → Bool)) (userDir : JsString) (d : Disk)
    (hclear : FileTree.Clear d [] (m.place (certsDirOf userDir)))
    (hflat : ∀ name, FileTree.entry d (m.place (certsDirOf userDir) ++ [name]) ≠ some .directory)
    (hnodup : (InsertionMap.keys d).Nodup) (visits : List (Visit κ))
    (hcalm : ∀ v ∈ visits, v.faults = .none) :
    let start := getCertsDir m userDir .none false d
    let result := session m needsPermission start.1 visits start.2
    Shelf.Session m needsPermission start.1 (shelfOf m start.1 start.2) visits result.1
      (shelfOf m start.1 result.2) := by
  have hdir : (getCertsDir m userDir .none false d).1 = certsDirOf userDir := by
    unfold getCertsDir
    dsimp only
    split <;> rfl
  dsimp only
  rw [hdir]
  exact session_serves needsPermission hcalm (ready_getCertsDir userDir hclear hflat hnodup)

/-- A machine that prints nothing of its own. -/
def plainMachine : Machine where
  host := .inert
  stringOf _ := .error []
  errorText _ := []
  osText _ _ := []
  cwd := []
  order := id
  order_perm _ := .refl _

def uploadBody (filename : JsString) (cert : Bytes) : JsValue :=
  .object [(js "filename", .str filename), (js "content", .str (Base64.encode cert))]

theorem routes_refine_upload :
    let visits : List (Visit Unit) := [⟨(), .upload (uploadBody (js "../a b.PEM") [1, 2, 3]), .none⟩,
      ⟨(), .certs, .none⟩, ⟨(), .delete (.str (js "a")), .none⟩]
    let start := getCertsDir plainMachine [] .none false []
    let result := session plainMachine none start.1 visits start.2
    Shelf.Session plainMachine none start.1 (shelfOf plainMachine start.1 start.2) visits result.1
      (shelfOf plainMachine start.1 result.2) := by
  refine routes_refine none [] [] (fun way content _ hne => ?_) (fun name => ?_) List.nodup_nil _ ?_
  · rw [List.nil_append, FileTree.entry, if_neg hne]
    intro h
    cases h
  · rw [FileTree.entry, if_neg (concat_ne _ _)]
    intro h
    cases h
  · intro v hv
    simp only [List.mem_cons, List.not_mem_nil, or_false] at hv
    rcases hv with rfl | rfl | rfl <;> rfl

/-! ## A certificate that was uploaded -/

theorem writeFileSync_ok {faults : Faults} {p : JsString} {buf : Bytes} {d' : Disk}
    (h : writeFileSync m faults p buf d = (.ok (), d')) :
    FileTree.writeFile (m.place p) buf d = .ok d' := by
  unfold writeFileSync at h
  split at h
  next written hwrite =>
    cases h
    exact hwrite
  next => cases h
  next => cases h
  next => cases h

/-- An upload that is answered as one has written what it was sent. -/
theorem uploaded_inv {faults : Faults} {body : JsValue} {path filename : JsString} {size : Nat}
    (h : (handle m certsDir faults (.upload body) d).1 = .uploaded path filename size) :
    ∃ bytes, m.host.bufferBase64 (bodyMember m body (js "content")) = .ok bytes ∧
      SafeName filename ∧ path = pathOf certsDir filename ∧ size = bytes.length ∧
      FileTree.entry (handle m certsDir faults (.upload body) d).2 (m.place path) =
        some (.file bytes) := by
  unfold handle at h ⊢
  dsimp only at h ⊢
  rw [uploadCert_eq] at h ⊢
  cases horder : uploadOrder m (bodyMember m body (js "filename")) (bodyMember m body (js "content")) with
  | error e =>
      rw [horder] at h
      cases h
  | ok order =>
      obtain ⟨name, bytes⟩ := order
      rw [horder] at h
      obtain ⟨hname, -, hbytes⟩ := sanitised_of_uploadOrder horder
      have hsafe := safeName_of_sanitised m hname
      dsimp only at h ⊢
      cases hwrite : writeFileSync m faults (PosixPath.join posix [certsDir, name]) bytes d with
      | mk r d' =>
          rw [hwrite] at h
          cases r with
          | error e => cases h
          | ok _ =>
              change Reply.uploaded _ (PosixPath.basename posix _) _ = _ at h
              rw [PosixPath.basename_join certsDir hsafe.isName] at h
              cases h
              obtain ⟨-, rfl⟩ := FileTree.writeFile_ok (writeFileSync_ok hwrite)
              refine ⟨bytes, hbytes, hsafe, rfl, rfl, ?_⟩
              dsimp only [Prod.map]
              rw [place_of_safe m certsDir hsafe]
              exact FileTree.entry_set_self (concat_ne _ _) _ _

/-- A file that is there is deleted under its name. -/
theorem handle_delete {filename : JsString} (hsafe : SafeName filename) {cert : Bytes}
    (hentry : FileTree.entry d (m.place (pathOf certsDir filename)) = some (.file cert))
    {faults : Faults} (hunlink : faults.unlink = none) (haccess : faults.access = false) :
    handle m certsDir faults (.delete (.str filename)) d =
      (.deleted, InsertionMap.erase (m.place (pathOf certsDir filename)) d) := by
  have hthere : existsSync m faults (pathOf certsDir filename) d = true := by
    rw [existsSync, haccess, hentry]
    rfl
  unfold handle
  dsimp only
  rw [deleteCert_eq, sanitiseFilename_of_safe m hsafe]
  change Prod.map deleteReply id (if existsSync m faults (pathOf certsDir filename) d = true
    then unlinkSync m faults (pathOf certsDir filename) d else _) = _
  rw [if_pos hthere, unlinkSync, hunlink, FileTree.removeFile_of_file hentry]
  rfl

/-- The bytes of an uploaded certificate stay under the path that was returned, whatever
else is sent to the routes and whatever the disk does, and the returned name deletes them. -/
theorem upload_kept (needsPermission : Option (Scope → κ → Bool)) {v : Visit κ} {body : JsValue}
    (hrequest : v.request = .upload body) {cert : Bytes}
    (hcontent : bodyMember m body (js "content") = .str (Base64.encode cert))
    {path filename : JsString} {size : Nat}
    (hreply : (serve m needsPermission certsDir v d).1 = .uploaded path filename size)
    (later : List (Visit κ))
    (hlater : ∀ w ∈ later, w.Admitted needsPermission → ¬w.request.Names m filename) :
    let after := (session m needsPermission certsDir later
      (serve m needsPermission certsDir v d).2).2
    size = cert.length ∧ FileTree.entry after (m.place path) = some (.file cert) ∧
      ∀ faults : Faults, faults.unlink = none → faults.access = false →
        handle m certsDir faults (.delete (.str filename)) after =
          (.deleted, InsertionMap.erase (m.place path) after) := by
  have hhandled : serve m needsPermission certsDir v d = handle m certsDir v.faults (.upload body) d := by
    unfold serve at hreply ⊢
    split
    next => rw [hrequest]
    next hdenied =>
      rw [if_neg hdenied] at hreply
      cases hreply
  rw [hhandled] at hreply ⊢
  obtain ⟨bytes, hbytes, hsafe, rfl, rfl, hentry⟩ := uploaded_inv hreply
  rw [hcontent, Host.bufferBase64, Base64.decode?_encode] at hbytes
  obtain rfl := Except.ok.inj hbytes
  have hplace : m.place (pathOf certsDir filename) = m.place certsDir ++ [filename] :=
    place_of_safe m certsDir hsafe
  dsimp only
  have hafter : FileTree.entry (session m needsPermission certsDir later
      (handle m certsDir v.faults (.upload body) d).2).2 (m.place (pathOf certsDir filename)) =
        some (.file cert) := by
    rcases session_contained (m := m) needsPermission certsDir later
        (handle m certsDir v.faults (.upload body) d).2 (m.place (pathOf certsDir filename))
      with hsame | htouched
    · exact hsame.trans hentry
    · obtain ⟨name, hat, -, ⟨w, hw, hadmitted, hnames⟩, -⟩ := htouched.entry
      obtain rfl := List.singleton_inj.mp (List.append_cancel_left (hplace.symm.trans hat))
      exact absurd hnames (hlater w hw hadmitted)
  exact ⟨rfl, hafter, fun faults hunlink haccess => handle_delete hsafe hafter hunlink haccess⟩

theorem upload_kept_pem :
    let d : Disk := [([js "data"], .directory)]
    let v : Visit Unit := ⟨(), .upload (uploadBody (js "client.pem") [1, 2, 3]), .none⟩
    let later : List (Visit Unit) := [⟨(), .upload (uploadBody (js "other.pem") [4]), .none⟩]
    let after := (session plainMachine none (js "/data") later
      (serve plainMachine none (js "/data") v d).2).2
    3 = ([1, 2, 3] : Bytes).length ∧
      FileTree.entry after (plainMachine.place (js "/data/client.pem")) = some (.file [1, 2, 3]) ∧
      ∀ faults : Faults, faults.unlink = none → faults.access = false →
        handle plainMachine (js "/data") faults (.delete (.str (js "client.pem"))) after =
          (.deleted, InsertionMap.erase (plainMachine.place (js "/data/client.pem")) after) := by
  have hreply : (serve plainMachine none (js "/data")
      (⟨(), .upload (uploadBody (js "client.pem") [1, 2, 3]), .none⟩ : Visit Unit)
      [([js "data"], .directory)]).1 = .uploaded (js "/data/client.pem") (js "client.pem") 3 := rfl
  have hcontent : bodyMember plainMachine (uploadBody (js "client.pem") [1, 2, 3]) (js "content") =
      .str (Base64.encode [1, 2, 3]) := rfl
  refine upload_kept none rfl hcontent hreply _ ?_
  intro w hw _ hnames
  obtain rfl := List.mem_singleton.mp hw
  obtain ⟨name, hname, hsanitised⟩ := hnames
  cases hname
  exact absurd hsanitised (by decide)

end OpcUaSuite.CertStore
