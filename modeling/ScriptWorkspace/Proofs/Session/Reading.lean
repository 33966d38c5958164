import ScriptWorkspace.Proofs.Session.Replacement

/-
  What is read from the files, and what is written over it.

  Reading a text or asking for a path tells something of the
  tree and leaves the session as it is. A file whose text can
  be read can also be written.

  Main declarations:
    * `Files.textAt`
    * `Files.textAt_eq_ok_iff`
    * `Files.perform_read`
    * `Files.existsAt`
    * `Files.perform_pathExists`
    * `Files.writeFile_eq_ok_iff`
    * `Files.perform_write`
    * `Files.exists_set_of_write`
    * `Files.exists_set_of_copy`
-/

namespace ScriptWorkspace

namespace Files

open Storage Storage.Calls

variable {ω : Type}
variable {outside : Outside ω}

------------------------------------------------------------
-- Reading
------------------------------------------------------------

/- The text of a file of a tree. -/
def textAt
    (place : Location)
    (tree : Tree)
    (path : Path) : Except Failure Text :=
  if isUsable path then
    match readFile tree place path with
    | .error fault => .error (.file (.read path fault))
    | .ok content =>
      match content.toText with
      | .ok text => .ok text
      | .error fault => .error (.file (.encoding path fault))
  else
    .error (.unexpected .pathWithNull)

/- Reading gives what the tree has and changes nothing. -/
theorem perform_read
    (outside : Outside ω)
    (session : Session ω)
    (path : Path) :
    (read path).perform outside session =
      (textAt outside.directory.names session.tree path,
        session) := by
  rw [read, Action.perform_bind, perform_requireUsable,
    textAt]
  cases isUsable path with
  | false => rfl
  | true =>
      change
        (match
          readFile session.tree outside.directory.names path
          with
        | .error fault => _
        | .ok content => _ : Action ω _).perform outside
            session =
          _
      cases
        readFile session.tree outside.directory.names path
        with
      | error fault => rfl
      | ok content => cases content <;> rfl

/- A content is read from the file that a path leads to. -/
theorem readFile_eq_ok_iff
    {place : Location}
    {tree : Tree}
    {path : Path}
    {content : Content} :
    readFile tree place path = .ok content ↔
      ∃ location,
        tree.resolve place path = .ok location ∧
          tree.find? location = some (.file content) := by
  unfold readFile Storage.Tree.node
  cases tree.resolve place path with
  | error kind => simp [bind, Except.bind]
  | ok location =>
      simp only [bind, Except.bind]
      cases hFound : tree.find? location with
      | none =>
          simp [throw, throwThe, MonadExceptOf.throw, hFound]
      | some node =>
          cases node with
          | directory => simp [pure, Except.pure, hFound]
          | file found => simp [pure, Except.pure, hFound]

/- A text is read from the file that a path leads to. -/
theorem textAt_eq_ok_iff
    {place : Location}
    {tree : Tree}
    {path : Path}
    {text : Text} :
    textAt place tree path = .ok text ↔
      isUsable path = true ∧
        ∃ location,
          tree.resolve place path = .ok location ∧
            tree.find? location =
              some (.file (.text text)) := by
  have hText :
      textAt place tree path = .ok text ↔
        isUsable path = true ∧
          readFile tree place path = .ok (.text text) := by
    unfold textAt
    cases isUsable path with
    | false => simp
    | true =>
        cases readFile tree place path with
        | error fault => simp
        | ok content => cases content <;> simp [Content.toText]
  rw [hText, readFile_eq_ok_iff]

------------------------------------------------------------
-- Asking
------------------------------------------------------------

/- Whether there is something at a path of a tree. -/
def existsAt
    (place : Location)
    (tree : Tree)
    (path : Path) : Except Failure Bool :=
  if isUsable path then
    match Calls.pathExists tree place path with
    | .ok found => .ok found
    | .error fault => .error (.unexpected (.system fault))
  else
    .ok false

theorem perform_pathExists
    (outside : Outside ω)
    (session : Session ω)
    (path : Path) :
    (Files.pathExists path).perform outside session =
      (existsAt outside.directory.names session.tree path,
        session) := by
  unfold Files.pathExists existsAt isUsable
  cases path.names.any (·.any (· == .char '\x00')) with
  | true => rfl
  | false =>
      change
        (match
          Calls.pathExists session.tree
            outside.directory.names path with
        | .ok found => _
        | .error fault => _ : Action ω _).perform outside
            session =
          _
      cases
        Calls.pathExists session.tree outside.directory.names
          path with
      | ok found => rfl
      | error fault => rfl

------------------------------------------------------------
-- Writing
------------------------------------------------------------

/- The record of a text that was written, or would be. -/
def writtenRecord (dryRun : Bool) (path : Path) : LogRecord :=
  { level := .info
    message :=
      ([Action.dryMark dryRun, "Wrote ", path.text] :
        List OsText).flatten }

/- A content is written where the path leads to. -/
theorem writeFile_eq_ok_iff
    {place : Location}
    {tree written : Tree}
    {path : Path}
    {content : Content} :
    writeFile tree place path content = .ok written ↔
      ∃ location,
        tree.resolve place path = .ok location ∧
          tree.find? location ≠ some .directory ∧
            tree.set location (.file content) = written := by
  unfold writeFile
  cases tree.resolve place path with
  | error kind => simp
  | ok location =>
      cases hNode : tree.find? location with
      | none => simp [hNode]
      | some node => cases node <;> simp [hNode]

/- Writing logs what was written, or fails. -/
theorem perform_write_eq
    (outside : Outside ω)
    (session : Session ω)
    (path : Path)
    (content : Text) :
    (write path content false).perform outside session =
      if isUsable path then
        match
          writeFile session.tree outside.directory.names path
            (.text content) with
        | .ok written =>
          (.ok (),
            { session with
              tree := written
              log :=
                session.log ++ [writtenRecord false path] })
        | .error fault =>
          (.error (.file (.write path fault)), session)
      else
        (.error (.unexpected .pathWithNull), session) := by
  rw [write, if_neg Bool.false_ne_true, Action.perform_bind,
    perform_requireUsable]
  cases isUsable path with
  | false => rfl
  | true =>
      change
        (match
          writeFile session.tree outside.directory.names path
            (.text content) with
        | .ok written => _
        | .error fault => _ : Action ω _).perform outside
            session =
          _
      cases
        writeFile session.tree outside.directory.names path
          (.text content) with
      | ok written => rfl
      | error fault => rfl

/- What can be read can be written. -/
theorem perform_write
    {location : Location}
    {session : Session ω}
    {path : Path}
    (content : Text)
    (hUsable : isUsable path = true)
    (hResolved :
      session.tree.resolve outside.directory.names path =
        .ok location)
    (hFree :
      session.tree.find? location ≠ some .directory) :
    (write path content false).perform outside session =
      (.ok (),
        { session with
          tree :=
            session.tree.set location (.file (.text content))
          log :=
            session.log ++ [writtenRecord false path] }) := by
  have hWrite :=
    writeFile_eq_ok_iff.mpr
      ⟨location, hResolved, hFree,
        Eq.refl
          (session.tree.set location
            (.file (.text content)))⟩
  rw [perform_write_eq, hUsable, if_pos rfl, hWrite]

/- A text was written where the path leads to. -/
theorem exists_set_of_write
    {session done : Session ω}
    {path : Path}
    {content : Text}
    (hRun :
      (write path content false).perform outside session =
        (.ok (), done)) :
    isUsable path = true ∧
      ∃ location,
        session.tree.resolve outside.directory.names path =
            .ok location ∧
          session.tree.find? location ≠ some .directory ∧
            session.tree.set location
                (.file (.text content)) =
              done.tree := by
  rw [perform_write_eq] at hRun
  cases hUsable : isUsable path with
  | false =>
      rw [hUsable] at hRun
      cases hRun
  | true =>
      rw [hUsable, if_pos rfl] at hRun
      cases hWrite :
          writeFile session.tree outside.directory.names path
            (.text content) with
      | error fault =>
          rw [hWrite] at hRun
          cases hRun
      | ok written =>
          rw [hWrite] at hRun
          cases hRun
          exact ⟨rfl, writeFile_eq_ok_iff.mp hWrite⟩

/- A file was copied as it was to where the path leads to. -/
theorem exists_set_of_copy
    {session done : Session ω}
    {source target : Path}
    (hRun :
      (copy source target false).perform outside session =
        (.ok (), done)) :
    ∃ content location,
      readFile session.tree outside.directory.names source =
          .ok content ∧
        session.tree.resolve outside.directory.names target =
            .ok location ∧
          session.tree.set location (.file content) =
            done.tree := by
  rcases Action.exists_of_perform_bind hRun with
    ⟨_, between, hSource, hRest⟩
  rcases Action.exists_of_perform_bind hRest with
    ⟨_, later, hTarget, hCopied⟩
  rw [perform_requireUsable] at hSource hTarget
  obtain rfl : session = between := congrArg Prod.snd hSource
  obtain rfl : session = later := congrArg Prod.snd hTarget
  change
    (match
      copyFile session.tree outside.directory.names source
        target with
    | .ok copied => _
    | .error fault => _ : Action ω _).perform outside
        session =
      _ at hCopied
  cases hCopy :
      copyFile session.tree outside.directory.names source
        target with
  | error fault =>
      rw [hCopy] at hCopied
      cases hCopied
  | ok copied =>
      rw [hCopy] at hCopied
      cases hCopied
      unfold copyFile at hCopy
      split at hCopy
      case isTrue => cases hCopy
      case isFalse =>
        cases hRead :
            readFile session.tree outside.directory.names
              source with
        | error fault =>
            rw [hRead] at hCopy
            cases hCopy
        | ok content =>
            rw [hRead] at hCopy
            rcases writeFile_eq_ok_iff.mp hCopy with
              ⟨location, hResolved, _, hSet⟩
            exact ⟨content, location, rfl, hResolved, hSet⟩

end Files

end ScriptWorkspace
