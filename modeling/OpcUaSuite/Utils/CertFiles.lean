import OpcUaSuite.Utils.CertStore
import Mathlib.Logic.Function.Basic

/-!
# What the certificate routes do to the disk

Whatever is sent to the routes, only entries of the certificate directory change. As
long as the disk does what it is asked, the routes are a store of files by name.
-/

namespace OpcUaSuite.CertStore

open Js ByteCodec

variable (m : Machine) {κ : Type}

/-! ## Names of files -/

/-- A name that stays inside its directory and holds only the characters left in place. -/
structure SafeName (name : JsString) : Prop where
  isName : posix.IsName name
  kept : ∀ u ∈ name, keptInFilename u = true

theorem SafeName.of_kept {name : JsString} (hkept : ∀ u ∈ name, keptInFilename u = true)
    (h : ¬(name = js "." ∨ name = js ".." ∨ name = [])) : SafeName name := by
  obtain ⟨hhere, hparent, hnil⟩ : name ≠ js "." ∧ name ≠ js ".." ∧ name ≠ [] := by
    simpa only [not_or] using h
  refine ⟨⟨hnil, hhere, hparent, fun hsep => ?_⟩, hkept⟩
  exact absurd (hkept _ hsep) (by decide)

theorem safeName_default : SafeName (js "cert.pem") :=
  .of_kept (List.all_eq_true.mp (by decide)) (by decide)

theorem safeName_safeText (text : JsString) : SafeName (safeText text) := by
  unfold safeText
  dsimp only
  split
  next => exact safeName_default
  next hother =>
    refine .of_kept (fun u hu => ?_) hother
    obtain ⟨w, -, rfl⟩ := List.mem_map.mp hu
    split
    next hw => exact hw
    next => decide

theorem safeText_of_safe {name : JsString} (h : SafeName name) : safeText name = name := by
  have hmap : (name.map fun u => if keptInFilename u then u else 95) = name := by
    conv_rhs => rw [← List.map_id name]
    exact List.map_congr_left fun u hu => if_pos (h.kept u hu)
  unfold safeText
  rw [hmap]
  exact if_neg (not_or.mpr ⟨h.isName.ne_here, not_or.mpr ⟨h.isName.ne_parent, h.isName.ne_nil⟩⟩)

/-- The names the sanitiser returns stay inside their directory. -/
theorem safeName_of_sanitised {v : JsValue} {name : JsString}
    (h : sanitiseFilename m v = .ok name) : SafeName name := by
  unfold sanitiseFilename at h
  cases htext : m.toString (if v.truthy then v else .str (js "cert.pem")) with
  | error e =>
      rw [htext] at h
      cases h
  | ok text =>
      rw [htext] at h
      obtain rfl := Except.ok.inj h
      exact safeName_safeText text

/-- A name that is safe is left as it is. -/
theorem sanitiseFilename_of_safe {name : JsString} (h : SafeName name) :
    sanitiseFilename m (.str name) = .ok name := by
  have htruthy : (JsValue.str name).truthy = true := by
    cases name with
    | nil => exact absurd rfl h.isName.ne_nil
    | cons u rest => rfl
  unfold sanitiseFilename
  rw [if_pos htruthy]
  exact congrArg Except.ok (safeText_of_safe h)

/-- The path of a safe name leads to an entry of the directory. -/
theorem place_of_safe (certsDir : JsString) {name : JsString} (h : SafeName name) :
    m.place (PosixPath.join posix [certsDir, name]) = m.place certsDir ++ [name] :=
  PosixPath.place_join m.cwd certsDir h.isName

/-! ## What a request does to the disk -/

/-- The file name a request carries. -/
def Request.filename : Request → Option JsValue
  | .upload body => some (bodyMember m body (js "filename"))
  | .certs => none
  | .delete filename => some filename

/-- The request is about the file of that name. -/
def Request.Names (request : Request) (name : JsString) : Prop :=
  ∃ v, request.filename m = some v ∧ sanitiseFilename m v = .ok name

/-- A file of the directory is written, with an extension that is allowed. -/
structure Writes (certsDir : JsString) (name : JsString) (d d' : Disk) : Prop where
  safe : SafeName name
  allowed : allowedExt name = true
  free : FileTree.entry d (m.place certsDir ++ [name]) ≠ some .directory
  eq : ∃ bytes, d' = InsertionMap.set (m.place certsDir ++ [name]) (.file bytes) d

structure Removes (certsDir : JsString) (name : JsString) (d d' : Disk) : Prop where
  safe : SafeName name
  isFile : ∃ bytes, FileTree.entry d (m.place certsDir ++ [name]) = some (.file bytes)
  eq : d' = InsertionMap.erase (m.place certsDir ++ [name]) d

/-- An entry of the directory that a request is about has become another file, or none. -/
structure Touched (certsDir : JsString) (place : List JsString) (about : JsString → Prop)
    (d d' : Disk) : Prop where
  entry : ∃ name, place = m.place certsDir ++ [name] ∧ SafeName name ∧ about name ∧
    (FileTree.entry d' place = none ∨
      allowedExt name = true ∧ ∃ bytes, FileTree.entry d' place = some (.file bytes))
  notDirectory : FileTree.entry d place ≠ some .directory

variable {m}

theorem writeFileSync_cases {faults : Faults} {p : JsString} {buf : Bytes} (d : Disk) :
    (writeFileSync m faults p buf d).2 = d ∨
      ∃ bytes, FileTree.writeFile (m.place p) bytes d = .ok (writeFileSync m faults p buf d).2 := by
  unfold writeFileSync
  split
  next d' hwrite => exact Or.inr ⟨buf, hwrite⟩
  next => exact Or.inl rfl
  next => exact Or.inl rfl
  next kept _ _ _ =>
    split
    next d' hwrite => exact Or.inr ⟨_, hwrite⟩
    next => exact Or.inl rfl

theorem unlinkSync_cases {faults : Faults} {p : JsString} (d : Disk) :
    (unlinkSync m faults p d).2 = d ∨
      FileTree.removeFile (m.place p) d = .ok (unlinkSync m faults p d).2 := by
  unfold unlinkSync
  split
  next d' hremove => exact Or.inr hremove
  next => exact Or.inl rfl
  next => exact Or.inl rfl

variable (m) in
/-- What an upload asks for, where it is well formed. -/
def uploadOrder (filename content : JsValue) : Except HttpError (JsString × Bytes) :=
  if content.truthy then
    (unstated (sanitiseFilename m filename)).bind fun name =>
      if allowedExt name then
        (unstated ((m.host.bufferBase64 content).mapError m.errorText)).map fun bytes => (name, bytes)
      else .error unsupportedType
  else .error missingContent

/-- An upload is an order, and the write that it asks for. -/
theorem uploadCert_eq (faults : Faults) (certsDir : JsString) (filename content : JsValue)
    (d : Disk) :
    uploadCert m faults certsDir filename content d =
      match uploadOrder m filename content with
      | .error e => (.error e, d)
      | .ok (name, bytes) =>
          match writeFileSync m faults (PosixPath.join posix [certsDir, name]) bytes d with
          | (.ok _, d') => (.ok ⟨PosixPath.join posix [certsDir, name], bytes.length⟩, d')
          | (.error e, d') => (.error e, d') := by
  unfold uploadCert uploadOrder
  cases content.truthy with
  | false => rfl
  | true =>
      refine (Effect.bind_ok rfl).trans ?_
      cases unstated (sanitiseFilename m filename) with
      | error e => rfl
      | ok name =>
          refine (Effect.bind_ok rfl).trans ?_
          simp only [if_true, Except.bind]
          cases allowedExt name with
          | false => rfl
          | true =>
              refine (Effect.bind_ok rfl).trans ?_
              cases unstated ((m.host.bufferBase64 content).mapError m.errorText) with
              | error e => rfl
              | ok bytes =>
                  refine (Effect.bind_ok rfl).trans ?_
                  simp only [if_true, Except.map]
                  cases hwrite : writeFileSync m faults (PosixPath.join posix [certsDir, name]) bytes d with
                  | mk r d' =>
                      cases r with
                      | ok _ => exact Effect.bind_ok hwrite
                      | error e => exact Effect.bind_error hwrite

/-- A deletion is a name, and the unlinking of a file that is there. -/
theorem deleteCert_eq (faults : Faults) (certsDir : JsString) (filename : JsValue) (d : Disk) :
    deleteCert m faults certsDir filename d =
      match unstated (sanitiseFilename m filename) with
      | .error e => (.error e, d)
      | .ok name =>
          if existsSync m faults (PosixPath.join posix [certsDir, name]) d then
            unlinkSync m faults (PosixPath.join posix [certsDir, name]) d
          else (.error fileNotFound, d) := by
  unfold deleteCert
  cases unstated (sanitiseFilename m filename) with
  | error e => rfl
  | ok name =>
      refine (Effect.bind_ok rfl).trans ?_
      refine (Effect.bind_ok rfl).trans ?_
      simp only
      cases existsSync m faults (PosixPath.join posix [certsDir, name]) d with
      | false => rfl
      | true => rfl

theorem sanitised_of_uploadOrder {filename content : JsValue} {name : JsString} {bytes : Bytes}
    (h : uploadOrder m filename content = .ok (name, bytes)) :
    sanitiseFilename m filename = .ok name ∧ allowedExt name = true ∧
      m.host.bufferBase64 content = .ok bytes := by
  unfold uploadOrder at h
  split at h
  next =>
    cases hname : sanitiseFilename m filename with
    | error e =>
        rw [hname] at h
        cases h
    | ok safe =>
        rw [hname] at h
        change (if allowedExt safe then _ else _) = _ at h
        split at h
        next hext =>
          cases hbytes : m.host.bufferBase64 content with
          | error e =>
              rw [hbytes] at h
              cases h
          | ok buf =>
              rw [hbytes] at h
              cases h
              exact ⟨rfl, hext, rfl⟩
        next => cases h
  next => cases h

/-- A request leaves the disk as it is, or writes or removes the file it is about. -/
theorem handle_cases (certsDir : JsString) (faults : Faults) (request : Request) (d : Disk) :
    (handle m certsDir faults request d).2 = d ∨
      ∃ name, request.Names m name ∧
        (Writes m certsDir name d (handle m certsDir faults request d).2 ∨
          Removes m certsDir name d (handle m certsDir faults request d).2) := by
  cases request with
  | certs => exact Or.inl rfl
  | upload body =>
      change (uploadCert m faults certsDir _ _ d).2 = d ∨ ∃ name, _ ∧
        (Writes m certsDir name d (uploadCert m faults certsDir _ _ d).2 ∨
          Removes m certsDir name d (uploadCert m faults certsDir _ _ d).2)
      rw [uploadCert_eq]
      cases horder : uploadOrder m (bodyMember m body (js "filename"))
          (bodyMember m body (js "content")) with
      | error e => exact Or.inl rfl
      | ok order =>
          obtain ⟨name, bytes⟩ := order
          obtain ⟨hname, hext, -⟩ := sanitised_of_uploadOrder horder
          have hsafe := safeName_of_sanitised m hname
          have hwritten : ∀ r : Except HttpError Unit × Disk,
              (match r with
                | (.ok _, d') =>
                    ((.ok ⟨PosixPath.join posix [certsDir, name], bytes.length⟩, d') :
                      Except HttpError Uploaded × Disk)
                | (.error e, d') => (.error e, d')).2 = r.2 := fun r => by
            obtain ⟨_ | _, d'⟩ := r <;> rfl
          rw [hwritten]
          rcases writeFileSync_cases d with hsame | ⟨written, hwrite⟩
          · exact Or.inl hsame
          · rw [place_of_safe m certsDir hsafe] at hwrite
            obtain ⟨hfree, heq⟩ := FileTree.writeFile_ok hwrite
            exact Or.inr ⟨name, ⟨_, rfl, hname⟩, Or.inl ⟨hsafe, hext, hfree, written, heq⟩⟩
  | delete filename =>
      change (deleteCert m faults certsDir filename d).2 = d ∨ ∃ name, _ ∧
        (Writes m certsDir name d (deleteCert m faults certsDir filename d).2 ∨
          Removes m certsDir name d (deleteCert m faults certsDir filename d).2)
      cases hname : sanitiseFilename m filename with
      | error e =>
          rw [deleteCert_eq, hname]
          exact Or.inl rfl
      | ok name =>
          have hsafe := safeName_of_sanitised m hname
          have hdelete : deleteCert m faults certsDir filename d =
              if existsSync m faults (PosixPath.join posix [certsDir, name]) d then
                unlinkSync m faults (PosixPath.join posix [certsDir, name]) d
              else (.error fileNotFound, d) := by
            rw [deleteCert_eq, hname]
            rfl
          rw [hdelete]
          split
          next =>
            rcases unlinkSync_cases d with hsame | hremove
            · exact Or.inl hsame
            · rw [place_of_safe m certsDir hsafe] at hremove
              obtain ⟨hfile, heq⟩ := FileTree.removeFile_ok hremove
              exact Or.inr ⟨name, ⟨_, rfl, hname⟩, Or.inr ⟨hsafe, hfile, heq⟩⟩
          next => exact Or.inl rfl

/-! ## Runs of requests -/

theorem Touched.mono {certsDir : JsString} {place : List JsString} {about about' : JsString → Prop}
    {d d' : Disk} (h : Touched m certsDir place about d d') (hle : ∀ name, about name → about' name) :
    Touched m certsDir place about' d d' := by
  obtain ⟨name, hplace, hsafe, habout, hentry⟩ := h.entry
  exact ⟨⟨name, hplace, hsafe, hle name habout, hentry⟩, h.notDirectory⟩

theorem Writes.touched {certsDir name : JsString} {d d' : Disk} (h : Writes m certsDir name d d')
    (place : List JsString) : FileTree.entry d' place = FileTree.entry d place ∨
      Touched m certsDir place (· = name) d d' := by
  obtain ⟨bytes, heq⟩ := h.eq
  by_cases hplace : place = m.place certsDir ++ [name]
  · refine Or.inr ⟨⟨name, hplace, h.safe, rfl, Or.inr ⟨h.allowed, bytes, ?_⟩⟩, hplace ▸ h.free⟩
    rw [heq, hplace]
    exact FileTree.entry_set_self (List.append_ne_nil_of_right_ne_nil _ (List.cons_ne_nil _ _)) _ _
  · rw [heq]
    exact Or.inl (FileTree.entry_set_of_ne hplace _ _)

theorem Removes.touched {certsDir name : JsString} {d d' : Disk} (h : Removes m certsDir name d d')
    (place : List JsString) : FileTree.entry d' place = FileTree.entry d place ∨
      Touched m certsDir place (· = name) d d' := by
  by_cases hplace : place = m.place certsDir ++ [name]
  · obtain ⟨bytes, hfile⟩ := h.isFile
    refine Or.inr ⟨⟨name, hplace, h.safe, rfl, Or.inl ?_⟩, ?_⟩
    · rw [h.eq, hplace]
      exact FileTree.entry_erase_self (List.append_ne_nil_of_right_ne_nil _ (List.cons_ne_nil _ _)) _
    · rw [hplace, hfile, ne_eq, Option.some.injEq]
      intro h
      cases h
  · rw [h.eq]
    exact Or.inl (FileTree.entry_erase_of_ne hplace _)

section Runs

variable (needsPermission : Option (Scope → κ → Bool)) (certsDir : JsString)

theorem serve_touched (v : Visit κ) (d : Disk) (place : List JsString) :
    FileTree.entry (serve m needsPermission certsDir v d).2 place = FileTree.entry d place ∨
      Touched m certsDir place (fun name => v.Admitted needsPermission ∧ v.request.Names m name) d
        (serve m needsPermission certsDir v d).2 := by
  unfold serve
  split
  next hadmitted =>
    rcases handle_cases (m := m) certsDir v.faults v.request d with hsame | ⟨name, hnames, hwrites | hremoves⟩
    · exact Or.inl (by rw [hsame])
    · exact (hwrites.touched place).imp_right fun h =>
        h.mono fun other hother => ⟨hadmitted, hother ▸ hnames⟩
    · exact (hremoves.touched place).imp_right fun h =>
        h.mono fun other hother => ⟨hadmitted, hother ▸ hnames⟩
  next => exact Or.inl rfl

/-- Whatever is sent to the routes, the only entries that change are files of the certificate
directory, under a sanitised name that an admitted request is about: they are gone, or
hold bytes under an extension that is allowed. -/
theorem session_contained (visits : List (Visit κ)) (d : Disk) (place : List JsString) :
    FileTree.entry (session m needsPermission certsDir visits d).2 place =
        FileTree.entry d place ∨
      Touched m certsDir place
        (fun name => ∃ v ∈ visits, v.Admitted needsPermission ∧ v.request.Names m name) d
        (session m needsPermission certsDir visits d).2 := by
  induction visits generalizing d with
  | nil => exact Or.inl rfl
  | cons v visits ih =>
      have hrun : (session m needsPermission certsDir (v :: visits) d).2 =
          (session m needsPermission certsDir visits (serve m needsPermission certsDir v d).2).2 := rfl
      rw [hrun]
      rcases ih (serve m needsPermission certsDir v d).2 with hlater | hlater <;>
        rcases serve_touched needsPermission certsDir v d place with hnow | hnow
      · exact Or.inl (hlater.trans hnow)
      · obtain ⟨name, hplace, hsafe, hnames, hentry⟩ := hnow.entry
        refine Or.inr ⟨⟨name, hplace, hsafe, ⟨v, List.mem_cons_self, hnames⟩, ?_⟩, hnow.notDirectory⟩
        rw [hlater]
        exact hentry
      · refine Or.inr ⟨(hlater.mono ?_).entry, hnow ▸ hlater.notDirectory⟩
        rintro name ⟨w, hw, hnames⟩
        exact ⟨w, List.mem_cons_of_mem v hw, hnames⟩
      · refine Or.inr ⟨(hlater.mono ?_).entry, hnow.notDirectory⟩
        rintro name ⟨w, hw, hnames⟩
        exact ⟨w, List.mem_cons_of_mem v hw, hnames⟩

end Runs

end OpcUaSuite.CertStore
