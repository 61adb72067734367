import VotingApp.CandidateUpdates

/-!
The two stores behind AddCandidate and UpdateCandidate. saveImage writes the uploaded file before
the statement is sent, and nothing takes it away again when the request fails later.
-/
namespace CandidateImages
open GoText GoTime JsonText Tables EffectProgram CallPool SoloRun VotingWorld
open VoteService Handlers VotingServer Frames SoloServer CandidateUpdates

abbrev Bytes := List UInt8

/-- The uploads directory: what each file of it holds. -/
abbrev Files := Str → Option Bytes

def Files.put (files : Files) (name : Str) (content : Bytes) : Files :=
  fun n => if n = name then some content else files n

/-- allowedImageTypes. -/
def allowedImageTypes : Str → Option Str
  | mimeType =>
    if mimeType = "image/jpeg".toList then some ".jpg".toList
    else if mimeType = "image/png".toList then some ".png".toList
    else if mimeType = "image/gif".toList then some ".gif".toList
    else if mimeType = "image/webp".toList then some ".webp".toList
    else none

/-- What saveImage takes from the standard library and the environment: the sniffing of a
content type, the absolute upload directory, and the next UUID. -/
structure Uploader where
  detectContentType : Bytes → Str
  absUploadDir : Str
  uuid : Str

/-- The steps of a request that can fail. A copy fails behind the bytes it has written, a
statement before or after it took effect. -/
inductive Step where
  | readHeader
  | seek
  | absUploadDir
  | absSavePath
  | create
  | copy (written : Nat)
  | statement (applied : Bool)
  deriving DecidableEq, Repr

structure Failure where
  step : Step
  text : Str
  deriving DecidableEq, Repr

/- The error of a step, behind the words of its fmt.Errorf. -/
def failsAt (fails : Option Failure) (step : Step) (words : String) : Option Str :=
  match fails with
  | some f => if f.step = step then some (words.toList ++ ": ".toList ++ f.text) else none
  | none => none

/- io.Copy. -/
def copyFile (fails : Option Failure) (name : Str) (file : Bytes) (files : Files) : Except Str Str × Files :=
  match fails with
  | some ⟨.copy written, text⟩ =>
    (.error ("failed to write image: ".toList ++ text), files.put name (file.take written))
  | _ => (.ok ("/uploads/".toList ++ name), files.put name file)

def saveAs (u : Uploader) (fails : Option Failure) (name : Str) (file : Bytes) (files : Files) :
    Except Str Str × Files :=
  match failsAt fails .absUploadDir "failed to resolve upload directory" with
  | some err => (.error err, files)
  | none =>
    match failsAt fails .absSavePath "failed to resolve save path" with
    | some err => (.error err, files)
    | none =>
      let absSavePath := u.absUploadDir ++ '/' :: name
      if !(u.absUploadDir ++ ['/']).isPrefixOf absSavePath then
        (.error "security: save path escapes upload directory".toList, files)
      else
        match failsAt fails .create "failed to create destination file" with
        | some err => (.error err, files)
        | none => copyFile fails name file (files.put name [])

def saveImage (u : Uploader) (fails : Option Failure) (file : Bytes) (files : Files) :
    Except Str Str × Files :=
  match failsAt fails .readHeader "failed to read file header" with
  | some err => (.error err, files)
  | none =>
    let mimeType := u.detectContentType (file.take 512)
    match allowedImageTypes mimeType with
    | none => (.error ("unsupported file type: ".toList ++ mimeType), files)
    | some ext =>
      match failsAt fails .seek "failed to reset file reader" with
      | some err => (.error err, files)
      | none => saveAs u fails (u.uuid ++ ext) file files

/-- The two requests that take an image. -/
inductive Request where
  | add (name description : Str)
  | update (id name description : Str)
  deriving DecidableEq, Repr

/-- The request gets as far as its image. -/
def Request.wellFormed : Request → Bool
  | .add name _ => name ≠ []
  | .update id name _ => (idParam id).isSome && name ≠ []

def Request.program (image : Upload) : Request → Act Response
  | .add name description => addCandidate name description image
  | .update id name description => updateCandidateAt id name description image

/- What saveImage makes of the image, if there is one. -/
def takeImage (u : Uploader) (fails : Option Failure) (req : Request) (image : Option Bytes)
    (files : Files) : Upload × Files :=
  if req.wellFormed then
    match image with
    | none => (none, files)
    | some file => (some (saveImage u fails file files).1, (saveImage u fails file files).2)
  else (none, files)

def statementFault : Option Failure → Option Fault
  | some ⟨.statement applied, text⟩ => some ⟨applied, text⟩
  | _ => none

/-- The table and the directory. -/
structure Stores where
  world : World
  uploads : Files

/-- The request is handled alone, with at most one failing step. -/
def Handled (cfg : Config) (u : Uploader) (fails : Option Failure) (req : Request)
    (image : Option Bytes) (before : Stores) (response : Response) (after : Stores) : Prop :=
  after.uploads = (takeImage u fails req image before.uploads).2 ∧
    ∃ later, Solo (server cfg) (fun o => o.fault = statementFault fails) hubOnly before.world
      (req.program (takeImage u fails req image before.uploads).1) response after.world later

/-- A step before the destination file is there. -/
def Step.early : Step → Bool
  | .copy _ | .statement _ => false
  | _ => true

def failsEarly (fails : Option Failure) : Bool := fails.any fun f => f.step.early

/-- The name of the destination file, if the content is an admitted image. -/
def destination (u : Uploader) (file : Bytes) : Option Str :=
  (allowedImageTypes (u.detectContentType (file.take 512))).map fun ext => u.uuid ++ ext

/-- How much of the image a copy writes. -/
def copied (fails : Option Failure) (file : Bytes) : Bytes :=
  match fails with
  | some ⟨.copy written, _⟩ => file.take written
  | _ => file

def copyFails : Option Failure → Bool
  | some ⟨.copy _, _⟩ => true
  | _ => false

/-- The file that a request creates, with what it is left with. -/
def created (u : Uploader) (fails : Option Failure) (req : Request) (image : Option Bytes) :
    Option (Str × Bytes) :=
  if req.wellFormed && !failsEarly fails then
    image.bind fun file => (destination u file).map fun name => (name, copied fails file)
  else none

@[simp] theorem put_put (files : Files) (name : Str) (a b : Bytes) :
    (files.put name a).put name b = files.put name b := by
  funext n
  unfold Files.put
  split <;> rfl

theorem path_inside (dir name : Str) : (dir ++ ['/']).isPrefixOf (dir ++ '/' :: name) = true := by
  rw [List.isPrefixOf_iff_prefix]
  exact ⟨name, by simp⟩

theorem copyFile_leaves (fails : Option Failure) (name : Str) (file : Bytes) (files : Files) :
    (copyFile fails name file files).2 = files.put name (copied fails file) ∧
      (copyFails fails = true → ∃ err, (copyFile fails name file files).1 = .error err) ∧
      (copyFails fails = false → (copyFile fails name file files).1 = .ok ("/uploads/".toList ++ name)) := by
  unfold copyFile copied copyFails
  rcases fails with _ | ⟨step, text⟩
  · simp
  · cases step <;> simp

theorem failsAt_some (step : Step) (text : Str) (words : String) :
    failsAt (some ⟨step, text⟩) step words = some (words.toList ++ ": ".toList ++ text) := if_pos rfl

theorem failsAt_late {fails : Option Failure} (late : failsEarly fails = false) {step : Step}
    (early : step.early = true) (words : String) : failsAt fails step words = none := by
  cases fails with
  | none => rfl
  | some f =>
    apply if_neg
    rintro rfl
    cases early.symm.trans late

/- Nothing is created by a request that fails early. -/
theorem saveImage_early {u : Uploader} {fails : Option Failure} (early : failsEarly fails = true)
    (file : Bytes) (files : Files) :
    ∃ err, saveImage u fails file files = (.error err, files) := by
  unfold saveImage saveAs
  split
  · exact ⟨_, rfl⟩
  · rename_i header
    dsimp only
    split
    · exact ⟨_, rfl⟩
    · split
      · exact ⟨_, rfl⟩
      · rename_i seek
        split
        · exact ⟨_, rfl⟩
        · rename_i absDir
          split
          · exact ⟨_, rfl⟩
          · rename_i absPath
            split
            · exact ⟨_, rfl⟩
            · split
              · exact ⟨_, rfl⟩
              · rename_i create
                rcases fails with _ | ⟨step, text⟩
                · cases early
                · cases step with
                  | readHeader => rw [failsAt_some] at header; cases header
                  | seek => rw [failsAt_some] at seek; cases seek
                  | absUploadDir => rw [failsAt_some] at absDir; cases absDir
                  | absSavePath => rw [failsAt_some] at absPath; cases absPath
                  | create => rw [failsAt_some] at create; cases create
                  | copy written => cases early
                  | statement applied => cases early

theorem saveImage_late {u : Uploader} {fails : Option Failure} (late : failsEarly fails = false)
    (file : Bytes) (files : Files) : saveImage u fails file files =
      match destination u file with
      | none =>
        (.error ("unsupported file type: ".toList ++ u.detectContentType (file.take 512)), files)
      | some name => copyFile fails name file (files.put name []) := by
  have passes : ∀ {step : Step} (words : String), step.early = true →
      failsAt fails step words = none := fun words early => failsAt_late late early words
  unfold saveImage destination
  rw [passes _ rfl]
  dsimp only
  cases allowedImageTypes (u.detectContentType (file.take 512)) with
  | none => rfl
  | some ext =>
    dsimp only [Option.map_some]
    rw [passes _ rfl]
    dsimp only
    unfold saveAs
    rw [passes _ rfl]
    dsimp only
    rw [passes _ rfl]
    dsimp only
    rw [path_inside, passes _ rfl]
    rfl

/- The image of a request that gets there, and what it leaves in the directory. -/
theorem takeImage_leaves (u : Uploader) (fails : Option Failure) (req : Request)
    (image : Option Bytes) (files : Files) : (takeImage u fails req image files).2 =
      match created u fails req image with
      | none => files
      | some (name, content) => files.put name content := by
  unfold takeImage created
  cases req.wellFormed with
  | false => rfl
  | true =>
    cases image with
    | none => simp
    | some file =>
      cases early : failsEarly fails with
      | true =>
        obtain ⟨err, saved⟩ := saveImage_early (u := u) early file files
        simp [saved]
      | false =>
        simp only [↓reduceIte, Bool.not_false, Bool.and_self, Option.bind_some]
        rw [saveImage_late early]
        cases destination u file with
        | none => rfl
        | some name =>
          dsimp only [Option.map_some]
          rw [(copyFile_leaves fails name file _).1, put_put]

/- A path to the image is handed on only if the whole image is there. -/
theorem takeImage_whole {u : Uploader} {fails : Option Failure} {req : Request}
    {image : Option Bytes} {files : Files} {path : Str}
    (taken : (takeImage u fails req image files).1 = some (.ok path)) :
    ∃ file name, image = some file ∧ path = "/uploads/".toList ++ name ∧
      created u fails req image = some (name, file) := by
  unfold takeImage at taken
  unfold created
  cases well : req.wellFormed with
  | false =>
    rw [well] at taken
    cases taken
  | true =>
    rw [well] at taken
    cases image with
    | none => cases taken
    | some file =>
      simp only [↓reduceIte, Option.some.injEq] at taken
      cases early : failsEarly fails with
      | true =>
        obtain ⟨err, saved⟩ := saveImage_early (u := u) early file files
        rw [saved] at taken
        cases taken
      | false =>
        rw [saveImage_late early] at taken
        cases at_name : destination u file with
        | none =>
          rw [at_name] at taken
          cases taken
        | some name =>
          rw [at_name] at taken
          dsimp only at taken
          obtain ⟨-, failed, saved⟩ := copyFile_leaves fails name file (files.put name [])
          cases fails_copying : copyFails fails with
          | true =>
            obtain ⟨err, same⟩ := failed fails_copying
            cases same.symm.trans taken
          | false =>
            have whole : copied fails file = file := by
              unfold copied
              split
              · cases fails_copying
              · rfl
            have same := (saved fails_copying).symm.trans taken
            refine ⟨file, name, rfl, (Except.ok.inj same).symm, ?_⟩
            simp [at_name, whole]

/- Without an image there is no path. -/
theorem takeImage_none {u : Uploader} {fails : Option Failure} {req : Request} {file : Bytes}
    {files : Files} (well : req.wellFormed = true) :
    (takeImage u fails req (some file) files).1 ≠ none := by
  unfold takeImage
  rw [well]
  simp

/-- What a statement answers when this is what happens to it. -/
def answerWith (f : Option Fault) (w : World) : (c : Cmd) → Option (Reply c × World)
  | .sql c => some ((faulty { fault := f } w.db (c.run w.db w.clock)).1,
      { w with db := (faulty { fault := f } w.db (c.run w.db w.clock)).2 })
  | _ => none

theorem statement_settles (cfg : Config) (f : Option Fault) :
    Settles (server cfg) (fun o => o.fault = f) hubOnly bare (answerWith f) where
  performs {w o c r w' x} fair performed answered := by
    cases c with
    | sql c =>
      obtain ⟨rfl, rfl⟩ := perform_sql performed
      cases answered
      have same : o.fault = f := by simpa using fair
      simp [faulty, same, bare]
    | _ => cases answered
  env {w e w'} calm moved := by
    cases e with
    | tick d => cases calm
    | _ =>
      obtain ⟨hub, -, rfl⟩ := Option.map_eq_some_iff.mp moved
      rfl

/-- The row a request is about. -/
def Request.target (db : Db) : Request → Int
  | .add _ _ => db.nextCandidate
  | .update id _ _ => (idParam id).getD 0

/-- How a request ends that has this path for its row. -/
inductive Ends (f : Option Fault) (db : Db) (id : Int) (path : Str) (r : Response) (db' : Db) : Prop where
  | failed (status : 400 ≤ r.status) (table : db' = db ∨ ∃ text, f = some ⟨true, text⟩)
  | stored (status : r.status < 400) {c : Candidate} (row : c ∈ db'.candidates) (same : c.id = id)
      (image : path ≠ [] → c.imagePath = path)

section Statements
variable {f : Option Fault} {w : World} {name description path : Str}

/- A statement that fails changes nothing, unless only its answer was lost. -/
theorem faulty_fails {α : Type} {db : Db} {ran : Except GoErr α × Db} {err : GoErr}
    (idle : ∀ e, ran.1 = .error e → ran.2 = db)
    (failed : (faulty { fault := f } db ran).1 = .error err) :
    (faulty { fault := f } db ran).2 = db ∨ ∃ text, f = some ⟨true, text⟩ := by
  cases f with
  | none => exact Or.inl (idle err failed)
  | some fault =>
    obtain ⟨applied, text⟩ := fault
    cases applied with
    | true => exact Or.inr ⟨text, rfl⟩
    | false => exact Or.inl rfl

theorem faulty_succeeds {α : Type} {db : Db} {ran : Except GoErr α × Db} {a : α}
    (done : (faulty { fault := f } db ran).1 = .ok a) :
    ran.1 = .ok a ∧ (faulty { fault := f } db ran).2 = ran.2 := by
  cases f with
  | none => exact ⟨done, rfl⟩
  | some fault => cases done

theorem evaluate_statement {α : Type} (c : SqlCmd) (next : Except GoErr c.Result → Act α) :
    evaluate (answerWith f) (sql c >>= next) w =
      evaluate (answerWith f) (next (faulty { fault := f } w.db (c.run w.db w.clock)).1)
        { w with db := (faulty { fault := f } w.db (c.run w.db w.clock)).2 } := rfl

theorem insert_ends : ∃ r w', evaluate (answerWith f) (insertWithImage name description path) w =
    some (r, w') ∧ Ends f w.db w.db.nextCandidate path r w'.db := by
  have idle : ∀ e, (SqlCmd.run w.db w.clock (.insertCandidate name description path)).1 = .error e →
      (SqlCmd.run w.db w.clock (.insertCandidate name description path)).2 = w.db := by
    intro e refused
    dsimp only [SqlCmd.run, Db.insertCandidate] at refused ⊢
    split at refused
    · rfl
    · cases refused
  unfold insertWithImage VoteService.insertCandidate
  change ∃ r w', evaluate (answerWith f) (sql (.insertCandidate name description path) >>= _) w = _ ∧ _
  rw [evaluate_statement]
  cases answered : (faulty { fault := f } w.db
      (SqlCmd.run w.db w.clock (.insertCandidate name description path))).1 with
  | error err => exact ⟨_, _, rfl, .failed (by decide) (faulty_fails idle answered)⟩
  | ok id =>
    obtain ⟨ran, left⟩ := faulty_succeeds answered
    have row : ⟨w.db.nextCandidate, name, description, path, toColumn w.clock, none⟩ ∈
        (SqlCmd.run w.db w.clock (.insertCandidate name description path)).2.candidates := by
      dsimp only [SqlCmd.run, Db.insertCandidate] at ran ⊢
      split at ran
      · cases ran
      · exact List.mem_append_right _ List.mem_cons_self
    rw [← left] at row
    exact ⟨_, _, rfl, .stored (show 201 < 400 by decide) row rfl fun _ => rfl⟩

/- Rows that hold what is written to them are not changed by it. -/
theorem unchanged_updated {e : Edit} {db : Db} {t : Nat}
    (held : ∀ c ∈ db.candidates, c.id = e.id → Holds e t c) : updated e t db = db := by
  have same : (db.candidates.map fun c =>
      if c.id = e.id then c.edit t e.name e.description e.path else c) = db.candidates := by
    conv_rhs => rw [← List.map_id db.candidates]
    apply List.map_congr_left
    intro c member
    split
    · rename_i same
      exact edit_same c |>.mpr (held c member same)
    · rfl
  rw [updated, same]

/- An update that reports no row has changed none, and one that reports rows has written them. -/
theorem update_effect {e : Edit} {db : Db} {t : Nat} :
    (answerOf (db.updateCandidate t e.id e.name e.description e.path).1 ≠ none →
      (db.updateCandidate t e.id e.name e.description e.path).2 = db) ∧
    (answerOf (db.updateCandidate t e.id e.name e.description e.path).1 = none →
      ∃ c ∈ (db.updateCandidate t e.id e.name e.description e.path).2.candidates,
        c.id = e.id ∧ Holds e t c) := by
  by_cases missing : Missing db e.id
  · rw [update_missing missing]
    exact ⟨fun _ => rfl, fun accepted => by cases accepted⟩
  · by_cases fits : Fits e
    · obtain ⟨left, ⟨accepted, -⟩ | ⟨refused, held⟩⟩ := update_written (t := t) missing fits
      · rw [left, accepted]
        refine ⟨fun refused => absurd rfl refused, fun _ => ?_⟩
        obtain ⟨present, held⟩ := updated_written (t := t) missing
        obtain ⟨c, member, same⟩ : ∃ c ∈ (updated e t db).candidates, c.id = e.id := by
          simpa [Missing] using present
        exact ⟨c, member, same, held c member same⟩
      · rw [left, refused]
        exact ⟨fun _ => unchanged_updated held, fun accepted => by cases accepted⟩
    · obtain ⟨err, -, refused⟩ := update_refused (t := t) missing fits
      rw [refused]
      exact ⟨fun _ => rfl, fun accepted => by cases accepted⟩

theorem update_evaluates (e : Edit) : evaluate (answerWith f) e.call w =
    some (answerOf (faulty { fault := f } w.db
        (w.db.updateCandidate w.clock e.id e.name e.description e.path)).1,
      { w with db := (faulty { fault := f } w.db
        (w.db.updateCandidate w.clock e.id e.name e.description e.path)).2 }) := by
  unfold Edit.call VoteService.updateCandidate
  rw [evaluate_statement]
  have ran : SqlCmd.run w.db w.clock (.updateCandidate e.id e.name e.description
      (if e.imagePath = [] then none else some e.imagePath)) =
        w.db.updateCandidate w.clock e.id e.name e.description e.path := rfl
  rw [ran]
  cases (faulty { fault := f } w.db (w.db.updateCandidate w.clock e.id e.name e.description e.path)).1 <;>
    rfl

theorem update_ends (id : Int) : ∃ r w', evaluate (answerWith f)
    (updateWithImage id name description path) w = some (r, w') ∧ Ends f w.db id path r w'.db := by
  let e : Edit := ⟨id, name, description, path⟩
  obtain ⟨unchanged, written⟩ := @update_effect e w.db w.clock
  have first := update_evaluates (f := f) (w := w) e
  unfold updateWithImage
  rw [show VoteService.updateCandidate id name description path = e.call from rfl, evaluate_then first]
  cases answered : (faulty { fault := f } w.db
      (w.db.updateCandidate w.clock e.id e.name e.description e.path)).1 with
  | error err =>
    have idle : ∀ x, (w.db.updateCandidate w.clock e.id e.name e.description e.path).1 = .error x →
        (w.db.updateCandidate w.clock e.id e.name e.description e.path).2 = w.db := by
      intro x refused
      exact unchanged (by simp [refused, answerOf])
    refine ⟨_, _, rfl, .failed ?_ (faulty_fails idle answered)⟩
    split
    · exact (show 400 ≤ 404 by decide)
    · exact (show 400 ≤ 500 by decide)
  | ok rows =>
    obtain ⟨ran, left⟩ := faulty_succeeds answered
    rw [ran] at unchanged written
    rw [← left] at unchanged written
    by_cases nothing : rows = 0
    · have refused : answerOf (.ok rows) = some errCandidateNotFound := if_pos nothing
      rw [refused] at unchanged ⊢
      exact ⟨_, _, rfl, .failed (show 400 ≤ 404 by decide) (Or.inl (unchanged (by simp)))⟩
    · have accepted : answerOf (.ok rows) = none := if_neg nothing
      rw [accepted] at written ⊢
      obtain ⟨c, member, same, -, -, image, -⟩ := written rfl
      refine ⟨_, _, rfl, .stored (show 200 < 400 by decide) member same fun full => ?_⟩
      rcases image with empty | image
      · exact absurd empty full
      · exact image

/-- The path that the statement of a request carries. -/
def pathOf : Upload → Str
  | some (.ok path) => path
  | _ => []

/-- The request comes to its statement. -/
def Request.Sends (req : Request) (image : Upload) : Prop :=
  req.wellFormed = true ∧ ∀ err, image ≠ some (.error err)

/- A request whose image was refused, or that did not get to it, sends no statement. -/
theorem program_ends (f : Option Fault) (w : World) (req : Request) (image : Upload) :
    ∃ r w', evaluate (answerWith f) (req.program image) w = some (r, w') ∧
      Ends f w.db (req.target w.db) (pathOf image) r w'.db ∧
      ((400 ≤ r.status ∧ w'.db = w.db) ∨ req.Sends image) := by
  have stops : ∀ {p : Act Response} {r : Response}, p = .done r → 400 ≤ r.status →
      ∃ r w', evaluate (answerWith f) p w = some (r, w') ∧
        Ends f w.db (req.target w.db) (pathOf image) r w'.db ∧
        ((400 ≤ r.status ∧ w'.db = w.db) ∨ req.Sends image) := by
    intro p r same status
    rw [same]
    exact ⟨r, w, rfl, .failed status (Or.inl rfl), Or.inl ⟨status, rfl⟩⟩
  cases req with
  | add name description =>
    unfold Request.program addCandidate
    dsimp only
    by_cases empty : name = []
    · rw [if_pos empty]
      exact stops rfl (show 400 ≤ 400 by decide)
    · rw [if_neg empty]
      have well : (Request.add name description).wellFormed = true := by simp [Request.wellFormed, empty]
      rcases image with _ | reason | path
      · obtain ⟨r, w', evaluated, ends⟩ := @insert_ends f w name description []
        exact ⟨r, w', evaluated, ends, Or.inr ⟨well, by simp⟩⟩
      · exact stops rfl (show 400 ≤ 400 by decide)
      · obtain ⟨r, w', evaluated, ends⟩ := @insert_ends f w name description path
        exact ⟨r, w', evaluated, ends, Or.inr ⟨well, by simp⟩⟩
  | update id name description =>
    unfold Request.program updateCandidateAt
    dsimp only
    cases valid : idParam id with
    | none => exact stops rfl (show 400 ≤ 400 by decide)
    | some candidateID =>
      dsimp only
      by_cases empty : name = []
      · rw [if_pos empty]
        exact stops rfl (show 400 ≤ 400 by decide)
      · rw [if_neg empty]
        have well : (Request.update id name description).wellFormed = true := by
          simp [Request.wellFormed, valid, empty]
        have target : (Request.update id name description).target w.db = candidateID := by
          rw [Request.target, valid]
          rfl
        rw [target]
        rcases image with _ | reason | path
        · obtain ⟨r, w', evaluated, ends⟩ := @update_ends f w name description [] candidateID
          exact ⟨r, w', evaluated, ends, Or.inr ⟨well, by simp⟩⟩
        · rw [← target]
          exact stops rfl (show 400 ≤ 400 by decide)
        · obtain ⟨r, w', evaluated, ends⟩ := @update_ends f w name description path candidateID
          exact ⟨r, w', evaluated, ends, Or.inr ⟨well, by simp⟩⟩

end Statements

theorem statement_of_fault {fails : Option Failure} {text : Str}
    (lost : statementFault fails = some ⟨true, text⟩) : ∃ text, fails = some ⟨.statement true, text⟩ := by
  rcases fails with _ | ⟨step, words⟩
  · cases lost
  · cases step with
    | statement applied =>
      simp only [statementFault, Option.some.injEq, Fault.mk.injEq] at lost
      rw [lost.1]
      exact ⟨words, rfl⟩
    | _ => cases lost

section Requests
variable {cfg : Config} {u : Uploader} {fails : Option Failure} {req : Request}
  {image : Option Bytes} {before after : Stores} {response : Response}

theorem handled_ends (handled : Handled cfg u fails req image before response after) :
    Ends (statementFault fails) before.world.db (req.target before.world.db)
        (pathOf (takeImage u fails req image before.uploads).1) response after.world.db ∧
      ((400 ≤ response.status ∧ after.world.db = before.world.db) ∨
        req.Sends (takeImage u fails req image before.uploads).1) := by
  obtain ⟨-, later, run⟩ := handled
  obtain ⟨r, w', evaluated, ends, sends⟩ := program_ends (statementFault fails) (bare before.world)
    req (takeImage u fails req image before.uploads).1
  have same := solo_evaluates (statement_settles cfg (statementFault fails)) run evaluated
  rw [Prod.mk.injEq] at same
  obtain ⟨rfl, rfl⟩ := same
  exact ⟨ends, sends⟩

/- With a statement that fails nothing else does, so only the type of the image is in its way. -/
theorem sends_admitted {applied : Bool} {text : Str} (fault : fails = some ⟨.statement applied, text⟩)
    (sends : req.Sends (takeImage u fails req image before.uploads).1) {file : Bytes}
    (with_image : image = some file) : (destination u file).isSome = true := by
  have late : failsEarly fails = false := by
    rw [fault]
    rfl
  cases at_name : destination u file with
  | some name => rfl
  | none =>
    apply absurd _ (sends.2 _)
    · exact "unsupported file type: ".toList ++ u.detectContentType (file.take 512)
    · unfold takeImage
      rw [sends.1, with_image]
      simp only [↓reduceIte]
      rw [saveImage_late late, at_name]

theorem handled_status (handled : Handled cfg u fails req image before response after) {n : Nat}
    (computed : (evaluate (answerWith (statementFault fails))
      (req.program (takeImage u fails req image before.uploads).1) (bare before.world)).map
        (fun x => x.1.status) = some n) : response.status = n := by
  obtain ⟨-, later, run⟩ := handled
  obtain ⟨x, evaluated, status⟩ := Option.map_eq_some_iff.mp computed
  rw [solo_evaluates (statement_settles cfg (statementFault fails)) run evaluated] at status
  exact status

theorem handled_exists (cfg : Config) (u : Uploader) (fails : Option Failure) (req : Request)
    (image : Option Bytes) (before : Stores) :
    ∃ response after, Handled cfg u fails req image before response after := by
  obtain ⟨r, w', evaluated, -⟩ := program_ends (statementFault fails) (bare before.world)
    req (takeImage u fails req image before.uploads).1
  have goes : ∀ w c x, answerWith (statementFault fails) (bare w) c = some x → ∃ w₁ o r w₂,
      Calm (server cfg) hubOnly w w₁ ∧ decide (o.fault = statementFault fails) = true ∧
        (server cfg).perform w₁ o c = some (r, w₂) := by
    intro w c x answered
    cases c with
    | sql c => exact ⟨w, { fault := statementFault fails }, _, _, .refl w, by simp, rfl⟩
    | _ => cases answered
  obtain ⟨world, later, run⟩ := solo_exists (statement_settles cfg (statementFault fails)) goes evaluated
  exact ⟨r, ⟨world, _⟩, rfl, later, run⟩

/- A request that is answered with an error has left the table as it was, unless it came to its statement,
   which took effect, and only the answer was lost; it has left every file as it was, and has added one exactly
   when it had created it. A request that succeeds with an image has stored the whole of it. -/
theorem request_leaves (fresh : ∀ ext, before.uploads (u.uuid ++ ext) = none)
    (handled : Handled cfg u fails req image before response after) :
    (400 ≤ response.status →
      (after.world.db = before.world.db ∨ (req.wellFormed = true ∧
        (∀ file, image = some file → (destination u file).isSome = true) ∧
          ∃ text, fails = some ⟨.statement true, text⟩)) ∧
        (created u fails req image = none → after.uploads = before.uploads) ∧
        ∀ name content, created u fails req image = some (name, content) →
          before.uploads name = none ∧ after.uploads = before.uploads.put name content) ∧
      (response.status < 400 → ∀ file, image = some file →
        ∃ name, ∃ c ∈ after.world.db.candidates, c.id = req.target before.world.db ∧
          c.imagePath = "/uploads/".toList ++ name ∧ after.uploads name = some file) := by
  obtain ⟨ends, sent⟩ := handled_ends handled
  have left := handled.1
  rw [takeImage_leaves] at left
  constructor
  · intro refused
    refine ⟨?_, fun nothing => ?_, fun name content made => ?_⟩
    · cases ends with
      | failed _ table =>
        rcases table with same | ⟨text, lost⟩
        · exact Or.inl same
        · obtain ⟨words, fault⟩ := statement_of_fault lost
          rcases sent with ⟨-, same⟩ | sends
          · exact Or.inl same
          · exact Or.inr ⟨sends.1, fun file with_image => sends_admitted fault sends with_image, words, fault⟩
      | stored below => omega
    · rw [left, nothing]
    · rw [made] at left
      refine ⟨?_, left⟩
      unfold created at made
      split at made
      · obtain ⟨file, -, named⟩ := Option.bind_eq_some_iff.mp made
        obtain ⟨n, at_n, same⟩ := Option.map_eq_some_iff.mp named
        obtain ⟨ext, -, rfl⟩ := Option.map_eq_some_iff.mp at_n
        rw [Prod.mk.injEq] at same
        rw [← same.1]
        exact fresh ext
      · cases made
  · rintro below file rfl
    have sends : req.Sends (takeImage u fails req (some file) before.uploads).1 := by
      rcases sent with ⟨refused, -⟩ | sends
      · omega
      · exact sends
    obtain ⟨well, no_error⟩ := sends
    cases taken : (takeImage u fails req (some file) before.uploads).1 with
    | none => exact absurd taken (takeImage_none well)
    | some result =>
      cases result with
      | error err => exact absurd taken (no_error err)
      | ok path =>
        obtain ⟨file', name, same, rfl, made⟩ := takeImage_whole taken
        cases same
        rw [made] at left
        rw [taken] at ends
        cases ends with
        | failed status => omega
        | stored _ row same holds =>
          refine ⟨name, _, row, same, holds (by simp [pathOf]), ?_⟩
          rw [left]
          exact if_pos rfl

end Requests

def pngSignature : Bytes := [0x89, 0x50, 0x4E, 0x47, 0x0D, 0x0A, 0x1A, 0x0A]

def pngUploader : Uploader where
  detectContentType file :=
    if pngSignature.isPrefixOf file then "image/png".toList else "application/octet-stream".toList
  absUploadDir := "/app/uploads".toList
  uuid := "0b2f6f1e-6f0c-4d8e-9a54-2c1f3f1f7a11".toList

def emptyUploads : Stores := ⟨twoCandidates.start.world, fun _ => none⟩

theorem request_leaves_image : ∃ response after,
    Handled devConfig pngUploader none (.add "Zoe".toList []) (some pngSignature) emptyUploads
        response after ∧
      ∃ name, ∃ c ∈ after.world.db.candidates, c.id = 3 ∧
        c.imagePath = "/uploads/".toList ++ name ∧ after.uploads name = some pngSignature := by
  obtain ⟨response, after, handled⟩ := handled_exists devConfig pngUploader none
    (.add "Zoe".toList []) (some pngSignature) emptyUploads
  have created : response.status = 201 := handled_status handled rfl
  exact ⟨response, after, handled,
    (request_leaves (fun _ => rfl) handled).2 (by rw [created]; decide) pngSignature rfl⟩

/- A missing candidate is reported, and the image of the request stays. -/
theorem missing_candidate_leaves_image : ∃ response after,
    Handled devConfig pngUploader none (.update "9".toList "Zoe".toList []) (some pngSignature)
        emptyUploads response after ∧
      response.status = 404 ∧ after.uploads ≠ emptyUploads.uploads := by
  obtain ⟨response, after, handled⟩ := handled_exists devConfig pngUploader none
    (.update "9".toList "Zoe".toList []) (some pngSignature) emptyUploads
  refine ⟨response, after, handled, handled_status handled rfl, fun same => ?_⟩
  have kept := congrFun handled.1 "0b2f6f1e-6f0c-4d8e-9a54-2c1f3f1f7a11.png".toList
  rw [same] at kept
  have stored : (takeImage pngUploader none (.update "9".toList "Zoe".toList []) (some pngSignature)
      emptyUploads.uploads).2 "0b2f6f1e-6f0c-4d8e-9a54-2c1f3f1f7a11.png".toList =
        some pngSignature := by rfl
  cases kept.trans stored

end CandidateImages
