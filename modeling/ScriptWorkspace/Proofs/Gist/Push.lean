import ScriptWorkspace.Gist.Sync
import ScriptWorkspace.Proofs.Gist.Client
import ScriptWorkspace.Proofs.Script.Locality

/-
  Pushing a script to the gist of its package.

  A push asks the store at most twice: it fetches the gist
  that is registered and changes it if it differs, or makes a
  gist if there is none. The registry gets an entry only with
  a gist that the store says it made.

  Main declarations:
    * `Sync.exists_packageForm`
    * `Sync.PushRun`
    * `Sync.performs_push`
    * `Sync.IsSafePush`
    * `Sync.push_safe`
-/

namespace ScriptWorkspace

namespace Sync

open GistClient

variable {ω : Type}
variable (outside : Outside ω) (session : Session ω)

------------------------------------------------------------
-- Differences
------------------------------------------------------------

/-
  A script that was fetched is not the local one, or has not
  the description that is asked for.
-/
def Differs
    (remote : RemoteScript)
    (script : Text)
    (description : Option Text) : Prop :=
  remote.content ≠ script ∨
    ∃ asked,
      description = some asked ∧ asked ≠ remote.description

theorem compare_of_not_differs
    {remote : RemoteScript}
    {script : Text}
    {description : Option Text}
    (hSame : ¬ Differs remote script description) :
    compare remote script description = .upToDate := by
  simp only [Differs, not_or, not_exists, not_and,
    ne_eq, not_not] at hSame
  rcases hSame with ⟨hContent, hDescription⟩
  unfold compare
  refine if_pos ⟨hContent, ?_⟩
  cases description with
  | none => rfl
  | some asked => simp [hDescription asked rfl]

theorem compare_of_differs
    {remote : RemoteScript}
    {script : Text}
    {description : Option Text}
    (hDiffers : Differs remote script description) :
    compare remote script description =
      .forward remote.gistId remote := by
  unfold compare
  rw [if_neg]
  rintro ⟨hContent, hDescription⟩
  rcases hDiffers with hOther | ⟨asked, rfl, hOther⟩
  · exact hOther hContent
  · simp at hDescription
    exact hOther hDescription

/- A script without a manifest counts as a source. -/
theorem exists_packageForm (script : Text) :
    ∃ files, packageForm script = .ok files := by
  unfold packageForm Script.split Script.withPlaceholder
  cases hExtract : Script.extract script with
  | ok manifest =>
      rcases Script.exists_replace_of_extract hExtract
          Script.placeholder with
        ⟨source, hReplace⟩
      rw [hReplace]
      exact ⟨{ manifest, source }, rfl⟩
  | error fault =>
      rcases Script.replace_of_extract_eq_error hExtract
          Script.placeholder with
        ⟨hReplace, rfl | ⟨header, rfl⟩⟩
      · rw [hReplace]
        exact ⟨_, rfl⟩
      · rw [hReplace]
        exact ⟨_, rfl⟩

/- Logging how two texts differ tells whether they do. -/
theorem performs_logDiff
    (label : OsText)
    (old new : Text) :
    ∃ after,
      Performs (logDiff label old new) outside session []
        (.ok (decide (old ≠ new))) after := by
  unfold logDiff
  by_cases hSame : old = new
  · rcases Performs.logInfo outside session
        ["No changes: ", label] with
      ⟨after, hLog⟩
    refine ⟨after, ?_⟩
    rw [if_pos hSame, decide_eq_false (not_not_intro hSame)]
    exact hLog.bind_quiet (.pure false)
  · rcases Performs.logInfo outside session
        ["`", label, "`:"] with
      ⟨named, hLog⟩
    rcases Performs.forIn_quiet
        (fun line : Text =>
          (Action.logInfo ["│", line] : Action ω Unit))
        (fun line session =>
          Performs.logInfo outside session ["│", line])
        (Diff.lines old new) named with
      ⟨after, hLines⟩
    refine ⟨after, ?_⟩
    rw [if_neg hSame, decide_eq_true hSame]
    exact
      hLog.bind_quiet (hLines.bind_quiet (.pure true))

theorem performs_logChanges
    (remote : RemoteScript)
    (script : Text) :
    ∃ after,
      Performs (logChanges remote script) outside session []
        (.ok ()) after := by
  rcases exists_packageForm remote.content with ⟨old, hOld⟩
  rcases exists_packageForm script with ⟨new, hNew⟩
  rcases performs_logDiff outside session Manifest.fileName
      old.manifest new.manifest with
    ⟨between, hManifest⟩
  rcases performs_logDiff outside between remote.filename
      old.source new.source with
    ⟨after, hSource⟩
  refine ⟨after, ?_⟩
  unfold logChanges
  rw [hOld, hNew]
  exact
    (Performs.ofExcept (.ok old)).bind_quiet
      ((Performs.ofExcept (.ok new)).bind_quiet
        (hManifest.bind_quiet
          (hSource.bind_quiet (.pure ()))))

------------------------------------------------------------
-- Runs
------------------------------------------------------------

/-
  The runs of a push that is not dry: what is exchanged, and
  the result with the registry.
-/
inductive PushRun
    (client : GistClient)
    (gistIds : GistIds)
    (package script : Text)
    (options : PushOptions) :
    List Exchange →
    Except Failure (RemoteState × GistIds) → Prop
  | noUpstream
      (hUnknown : GistIds.find? package gistIds = none)
      (hOff : options.setUpstream = false) :
      PushRun client gistIds package script options []
        (.error (.gist .noUpstream))
  | create
      {exchanges : List Exchange}
      {found : Except Failure Json}
      (hUnknown : GistIds.find? package gistIds = none)
      (hOn : options.setUpstream = true)
      (hPost :
        client.Requests "POST" "gists" 201
          (some
            (newGist (package ++ (".rs" : Text)) script
              (options.description.getD [])
              (!options.isPrivate)))
          exchanges found) :
      PushRun client gistIds package script options exchanges
        ((found.bind createdIn).map fun gistId =>
          (.absent, GistIds.put package gistId gistIds))
  | notFetched
      {gistId : Text}
      {exchanges : List Exchange}
      {found : Except Failure Json}
      {failure : Failure}
      (hKnown : GistIds.find? package gistIds = some gistId)
      (hGet :
        client.Requests "GET" (pathOf gistId) 200 none
          exchanges found)
      (hFailed :
        found.bind (scriptIn gistId) = .error failure) :
      PushRun client gistIds package script options exchanges
        (.error failure)
  | upToDate
      {gistId : Text}
      {exchanges : List Exchange}
      {found : Except Failure Json}
      {remote : RemoteScript}
      (hKnown : GistIds.find? package gistIds = some gistId)
      (hGet :
        client.Requests "GET" (pathOf gistId) 200 none
          exchanges found)
      (hFetched : found.bind (scriptIn gistId) = .ok remote)
      (hSame : ¬ Differs remote script options.description) :
      PushRun client gistIds package script options exchanges
        (.ok (.upToDate, gistIds))
  | update
      {gistId : Text}
      {fetched written : List Exchange}
      {found answered : Except Failure Json}
      {remote : RemoteScript}
      (hKnown : GistIds.find? package gistIds = some gistId)
      (hGet :
        client.Requests "GET" (pathOf gistId) 200 none fetched
          found)
      (hFetched : found.bind (scriptIn gistId) = .ok remote)
      (hDiffers : Differs remote script options.description)
      (hPatch :
        client.Requests "PATCH" (pathOf gistId) 200
          (some
            (changedGist remote.filename script
              (options.description.getD remote.description)))
          written answered) :
      PushRun client gistIds package script options
        (fetched ++ written)
        (answered.map fun _ =>
          (.forward gistId remote, gistIds))

/- The store is asked for the gist that is registered. -/
theorem gistId_of_scriptIn
    {gistId : Text}
    {value : Json}
    {remote : RemoteScript}
    (hScript : scriptIn gistId value = .ok remote) :
    remote.gistId = gistId := by
  unfold scriptIn at hScript
  cases hGist : Gist.ofJson? value with
  | none => simp [hGist] at hScript
  | some gist =>
      cases hFile : gist.rustFile with
      | error failure =>
          simp [hGist, hFile, bind, Except.bind] at hScript
      | ok file =>
          simp only [hGist, hFile, bind, Except.bind, pure,
            Except.pure, Except.ok.injEq] at hScript
          rw [← hScript]

/- A push without a registered gist. -/
theorem performs_push_of_unknown
    (client : GistClient)
    {gistIds : GistIds}
    {package : Text}
    (script : Text)
    (options : PushOptions)
    (hUnknown : GistIds.find? package gistIds = none) :
    ∃ exchanges result after,
      PushRun client gistIds package script options exchanges
          result ∧
        Performs
          (push client gistIds package script options false)
          outside session exchanges result after := by
  have hPush :
      push client gistIds package script options false =
        (do
          let gistIds ←
            createGist (ω := ω) client gistIds package script
              options false
          return (RemoteState.absent, gistIds)) := by
    unfold push
    rw [hUnknown]
    rfl
  rw [hPush]
  cases hOption : options.setUpstream with
  | false =>
      refine
        ⟨[], _, session, .noUpstream hUnknown hOption, ?_⟩
      unfold createGist
      rw [hOption]
      exact ((Performs.throw _).bind_error _).bind_error _
  | true =>
      rcases client.performs_create outside session
          (package ++ (".rs" : Text)) script
          (options.description.getD []) (!options.isPrivate)
        with ⟨exchanges, found, created, hPost, hCreate⟩
      have hRun :
          PushRun client gistIds package script options
            exchanges _ :=
        .create hUnknown hOption hPost
      cases hId : found.bind createdIn with
      | error failure =>
          rw [hId] at hRun hCreate
          refine ⟨exchanges, _, created, hRun, ?_⟩
          unfold createGist
          rw [hOption]
          exact (hCreate.bind_error _).bind_error _
      | ok gistId =>
          rw [hId] at hRun hCreate
          rcases Performs.logInfo outside created
              ["`gist_ids.", package, "`: None → Some(",
                gistId.quoted, ")"] with
            ⟨after, hLog⟩
          refine ⟨exchanges, _, after, hRun, ?_⟩
          unfold createGist
          rw [hOption, ← List.append_nil exchanges]
          refine Performs.bind_ok ?_ (.pure _)
          rw [← List.append_nil exchanges]
          exact hCreate.bind_ok (hLog.bind_quiet (.pure _))

/- A push with a registered gist. -/
theorem performs_push_of_known
    (client : GistClient)
    {gistIds : GistIds}
    {package gistId : Text}
    (script : Text)
    (options : PushOptions)
    (hKnown : GistIds.find? package gistIds = some gistId) :
    ∃ exchanges result after,
      PushRun client gistIds package script options exchanges
          result ∧
        Performs
          (push client gistIds package script options false)
          outside session exchanges result after := by
  rcases client.performs_retrieve outside session gistId with
    ⟨fetched, found, fetchedAt, hGet, hRetrieve⟩
  unfold push
  rw [hKnown]
  cases hFetched : found.bind (scriptIn gistId) with
  | error failure =>
      rw [hFetched] at hRetrieve
      exact
        ⟨fetched, _, fetchedAt,
          .notFetched hKnown hGet hFetched,
          (hRetrieve.bind_error _).bind_error _⟩
  | ok remote =>
      rw [hFetched] at hRetrieve
      have hId : remote.gistId = gistId := by
        cases found with
        | error failure => cases hFetched
        | ok value => exact gistId_of_scriptIn hFetched
      have hState :
          Performs
            (determineState client (some gistId) script
              options.description)
            outside session fetched
            (.ok (compare remote script options.description))
            fetchedAt := by
        rw [← List.append_nil fetched]
        exact hRetrieve.bind_ok (.pure _)
      by_cases hDiffers :
          Differs remote script options.description
      · rw [compare_of_differs hDiffers, hId] at hState
        rcases client.performs_update outside fetchedAt gistId
            remote.filename script
            (options.description.getD remote.description) with
          ⟨written, answered, writtenAt, hPatch, hUpdate⟩
        have hRun :
            PushRun client gistIds package script options
              (fetched ++ written) _ :=
          .update hKnown hGet hFetched hDiffers hPatch
        cases answered with
        | error failure =>
            exact
              ⟨_, _, writtenAt, hRun,
                hState.bind_ok (hUpdate.bind_error _)⟩
        | ok value =>
            rcases performs_logChanges outside writtenAt remote
                script with
              ⟨after, hLog⟩
            refine
              ⟨_, _, after, hRun, hState.bind_ok ?_⟩
            rw [← List.append_nil written]
            exact
              hUpdate.bind_ok (hLog.bind_quiet (.pure _))
      · rw [compare_of_not_differs hDiffers] at hState
        rcases Performs.logInfo outside fetchedAt
            ["Up to date"] with
          ⟨after, hLog⟩
        refine
          ⟨fetched, _, after,
            .upToDate hKnown hGet hFetched hDiffers, ?_⟩
        rw [← List.append_nil fetched]
        exact hState.bind_ok (hLog.bind_quiet (.pure _))

/- What a push that is not dry does. -/
theorem performs_push
    (client : GistClient)
    (gistIds : GistIds)
    (package script : Text)
    (options : PushOptions) :
    ∃ exchanges result after,
      PushRun client gistIds package script options exchanges
          result ∧
        Performs
          (push client gistIds package script options false)
          outside session exchanges result after := by
  cases hFind : GistIds.find? package gistIds with
  | none =>
      exact
        performs_push_of_unknown outside session client script
          options hFind
  | some gistId =>
      exact
        performs_push_of_known outside session client script
          options hFind

------------------------------------------------------------
-- What A Push Keeps To
------------------------------------------------------------

/- The reply says that a gist was made, and its id. -/
def Creates (gistId : Text) (reply : Reply) : Prop :=
  ∃ body value,
    reply = .answer 201 body ∧
      readBody body = some value ∧
      Gist.createdId? value = some gistId

/- The reply holds the script of a gist. -/
def Holds
    (gistId : Text)
    (remote : RemoteScript)
    (reply : Reply) : Prop :=
  ∃ body value,
    reply = .answer 200 body ∧
      readBody body = some value ∧
      scriptIn gistId value = .ok remote

/-
  The registry after a push: that of its result, or the one
  that was given if there is no result.
-/
def registryAfter
    (gistIds : GistIds) :
    Except Failure (RemoteState × GistIds) → GistIds
  | .ok (_, registry) => registry
  | .error _ => gistIds

/- What the exchanges and the result of a push keep to. -/
structure IsSafePush
    (client : GistClient)
    (gistIds : GistIds)
    (package script : Text)
    (options : PushOptions)
    (exchanges : List Exchange)
    (result : Except Failure (RemoteState × GistIds)) :
    Prop where
  ordered :
    ∃ fetches writes,
      exchanges = fetches ++ writes ∧
        fetches.length ≤ 1 ∧
        writes.length ≤ 1 ∧
        (∀ exchange ∈ fetches,
          exchange.request.method = "GET") ∧
        ∀ exchange ∈ writes,
          exchange.request.method = "PATCH" ∨
            exchange.request.method = "POST"
  fetched :
    ∀ exchange ∈ exchanges,
      exchange.request.method = "GET" →
        ∃ gistId reference,
          GistIds.find? package gistIds = some gistId ∧
            Address.read? (pathOf gistId) = some reference ∧
            exchange.request =
              client.requestTo "GET" reference none
  patched :
    ∀ exchange ∈ exchanges,
      exchange.request.method = "PATCH" →
        ∃ gistId reference fetch remote,
          GistIds.find? package gistIds = some gistId ∧
            Address.read? (pathOf gistId) = some reference ∧
            exchanges = [fetch, exchange] ∧
            fetch.request =
              client.requestTo "GET" reference none ∧
            Holds gistId remote fetch.reply ∧
            Differs remote script options.description ∧
            exchange.request =
              client.requestTo "PATCH" reference
                (some
                  (changedGist remote.filename script
                    (options.description.getD
                      remote.description)))
  posted :
    ∀ exchange ∈ exchanges,
      exchange.request.method = "POST" →
        GistIds.find? package gistIds = none ∧
          options.setUpstream = true ∧
          exchanges = [exchange] ∧
          ∃ reference,
            Address.read? "gists" = some reference ∧
              exchange.request =
                client.requestTo "POST" reference
                  (some
                    (newGist (package ++ (".rs" : Text)) script
                      (options.description.getD [])
                      (!options.isPrivate)))
  created :
    ∀ exchange ∈ exchanges,
      exchange.request.method = "POST" →
        ∀ gistId,
          Creates gistId exchange.reply →
            result =
              .ok (.absent, gistIds ++ [(package, gistId)])
  registry :
    registryAfter gistIds result = gistIds ∨
      ∃ exchange ∈ exchanges,
        ∃ gistId,
          exchange.request.method = "POST" ∧
            Creates gistId exchange.reply ∧
            registryAfter gistIds result =
              gistIds ++ [(package, gistId)]
  failed :
    ∀ failure,
      result = .error failure →
        registryAfter gistIds result = gistIds ∧
          ∀ exchange ∈ exchanges,
            exchange.request.method = "POST" →
              ∀ gistId, ¬ Creates gistId exchange.reply
  noUpstream :
    GistIds.find? package gistIds = none →
      options.setUpstream = false →
        exchanges = [] ∧ result = .error (.gist .noUpstream)

section Safety

variable {client : GistClient}
variable {gistIds : GistIds}
variable {package script gistId : Text}
variable {options : PushOptions}

/- An entry for a package that has none is the last one. -/
theorem put_of_find?_eq_none
    (hUnknown : GistIds.find? package gistIds = none)
    (gistId : Text) :
    GistIds.put package gistId gistIds =
      gistIds ++ [(package, gistId)] := by
  induction gistIds with
  | nil => rfl
  | cons entry gistIds ih =>
      rcases entry with ⟨name, old⟩
      have hOther : ¬ name = package := by
        rintro rfl
        simp [GistIds.find?] at hUnknown
      have hBeq : (package == name) = false :=
        beq_false_of_ne (Ne.symm hOther)
      have hRest : GistIds.find? package gistIds = none := by
        simpa only [GistIds.find?, List.lookup_cons, hBeq]
          using hUnknown
      simp [GistIds.put, hOther, ih hRest]

/- A push that only fetches keeps the registry. -/
theorem isSafePush_of_fetch
    {exchanges : List Exchange}
    {found : Except Failure Json}
    {result : Except Failure (RemoteState × GistIds)}
    (hKnown : GistIds.find? package gistIds = some gistId)
    (hGet :
      client.Requests "GET" (pathOf gistId) 200 none
        exchanges found)
    (hRegistry : registryAfter gistIds result = gistIds) :
    IsSafePush client gistIds package script options exchanges
      result := by
  have hMethod :
      ∀ exchange ∈ exchanges,
        exchange.request.method = "GET" :=
    fun _ hMem => hGet.method_of_mem hMem
  have hNoPost :
      ∀ exchange ∈ exchanges,
        exchange.request.method ≠ "POST" := by
    intro exchange hMem
    rw [hMethod exchange hMem]
    decide
  constructor
  case ordered =>
    exact
      ⟨exchanges, [], (List.append_nil _).symm,
        hGet.length_le, Nat.zero_le 1, hMethod,
        List.forall_mem_nil _⟩
  case fetched =>
    intro exchange hMem hMethod
    rcases hGet.of_mem hMem with
      ⟨_, reference, hPath, hRequest, _⟩
    exact ⟨gistId, reference, hKnown, hPath, hRequest⟩
  case patched =>
    intro exchange hMem hPatch
    rw [hMethod exchange hMem] at hPatch
    exact absurd hPatch (by decide)
  case posted =>
    intro exchange hMem hPost
    exact absurd hPost (hNoPost exchange hMem)
  case created =>
    intro exchange hMem hPost
    exact absurd hPost (hNoPost exchange hMem)
  case registry => exact .inl hRegistry
  case failed =>
    intro failure hFailed
    refine ⟨hRegistry, ?_⟩
    intro exchange hMem hPost
    exact absurd hPost (hNoPost exchange hMem)
  case noUpstream =>
    intro hUnknown
    rw [hKnown] at hUnknown
    cases hUnknown

/- A gist was made just if an id comes of the request. -/
theorem createdIn_of_creates
    {path shown : Text}
    {exchange : Exchange}
    (hCreates : Creates gistId exchange.reply) :
    (exchange.reply.value path shown 201).bind createdIn =
      .ok gistId := by
  rcases hCreates with ⟨body, value, hReply, hBody, hId⟩
  rw [hReply, Reply.value_answer path shown 201 hBody]
  simp only [Except.bind, createdIn, hId]

theorem creates_of_createdIn
    {path : Text}
    {payload : Option Json}
    {exchanges : List Exchange}
    {found : Except Failure Json}
    (hPost :
      client.Requests "POST" path 201 payload exchanges found)
    (hId : found.bind createdIn = .ok gistId) :
    ∃ exchange,
      exchanges = [exchange] ∧
        Creates gistId exchange.reply := by
  cases found with
  | error failure => cases hId
  | ok value =>
      rcases hPost.of_ok with
        ⟨exchange, body, hExchanges, hReply, hBody⟩
      refine
        ⟨exchange, hExchanges, body, value, hReply, hBody, ?_⟩
      simp only [Except.bind, createdIn] at hId
      cases hCreated : Gist.createdId? value with
      | none => simp [hCreated] at hId
      | some created =>
          simp only [hCreated, Except.ok.injEq] at hId
          rw [hId]

/- A push that makes a gist registers it if it was made. -/
theorem isSafePush_of_create
    {exchanges : List Exchange}
    {found : Except Failure Json}
    (hUnknown : GistIds.find? package gistIds = none)
    (hOn : options.setUpstream = true)
    (hPost :
      client.Requests "POST" "gists" 201
        (some
          (newGist (package ++ (".rs" : Text)) script
            (options.description.getD [])
            (!options.isPrivate)))
        exchanges found) :
    IsSafePush client gistIds package script options exchanges
      ((found.bind createdIn).map fun gistId =>
        (.absent, GistIds.put package gistId gistIds)) := by
  have hMethod :
      ∀ exchange ∈ exchanges,
        exchange.request.method = "POST" :=
    fun _ hMem => hPost.method_of_mem hMem
  have hOther :
      ∀ method : Text,
        method ≠ "POST" →
          ∀ exchange ∈ exchanges,
            exchange.request.method ≠ method := by
    intro method hNe exchange hMem hEq
    exact hNe (hEq.symm.trans (hMethod exchange hMem))
  have hCreated :
      ∀ exchange ∈ exchanges,
        ∀ gistId,
          Creates gistId exchange.reply →
            found.bind createdIn = .ok gistId := by
    intro exchange hMem gistId hCreates
    rcases hPost.of_mem hMem with ⟨_, _, _, _, rfl⟩
    exact createdIn_of_creates hCreates
  constructor
  case ordered =>
    exact
      ⟨[], exchanges, rfl, Nat.zero_le 1, hPost.length_le,
        List.forall_mem_nil _,
        fun exchange hMem => .inr (hMethod exchange hMem)⟩
  case fetched =>
    intro exchange hMem hGet
    exact absurd hGet (hOther _ (by decide) exchange hMem)
  case patched =>
    intro exchange hMem hPatch
    exact absurd hPatch (hOther _ (by decide) exchange hMem)
  case posted =>
    intro exchange hMem _
    rcases hPost.of_mem hMem with
      ⟨hExchanges, reference, hPath, hRequest, _⟩
    exact
      ⟨hUnknown, hOn, hExchanges, reference, hPath, hRequest⟩
  case created =>
    intro exchange hMem _ gistId hCreates
    rw [hCreated exchange hMem gistId hCreates, Except.map,
      put_of_find?_eq_none hUnknown]
  case registry =>
    cases hId : found.bind createdIn with
    | error failure => exact .inl rfl
    | ok gistId =>
        rcases creates_of_createdIn hPost hId with
          ⟨exchange, rfl, hCreates⟩
        have hMem : exchange ∈ [exchange] :=
          List.mem_singleton_self exchange
        exact
          .inr
            ⟨exchange, hMem, gistId, hMethod exchange hMem,
              hCreates, put_of_find?_eq_none hUnknown gistId⟩
  case failed =>
    intro failure hFailed
    refine ⟨by rw [hFailed]; rfl, ?_⟩
    intro exchange hMem _ gistId hCreates
    rw [hCreated exchange hMem gistId hCreates] at hFailed
    cases hFailed
  case noUpstream =>
    intro _ hOff
    rw [hOn] at hOff
    cases hOff

/- A push that changes the gist keeps the registry. -/
theorem isSafePush_of_update
    {fetched written : List Exchange}
    {found answered : Except Failure Json}
    {remote : RemoteScript}
    (hKnown : GistIds.find? package gistIds = some gistId)
    (hGet :
      client.Requests "GET" (pathOf gistId) 200 none fetched
        found)
    (hFetched : found.bind (scriptIn gistId) = .ok remote)
    (hDiffers : Differs remote script options.description)
    (hPatch :
      client.Requests "PATCH" (pathOf gistId) 200
        (some
          (changedGist remote.filename script
            (options.description.getD remote.description)))
        written answered) :
    IsSafePush client gistIds package script options
      (fetched ++ written)
      (answered.map fun _ =>
        (.forward gistId remote, gistIds)) := by
  have hRegistry :
      registryAfter gistIds
          (answered.map fun _ =>
            (RemoteState.forward gistId remote, gistIds)) =
        gistIds := by
    cases answered with
    | error failure => rfl
    | ok value => rfl
  have hNoPost :
      ∀ exchange ∈ fetched ++ written,
        exchange.request.method ≠ "POST" := by
    intro exchange hMem
    rcases List.mem_append.mp hMem with hMem | hMem
    · rw [hGet.method_of_mem hMem]
      decide
    · rw [hPatch.method_of_mem hMem]
      decide
  cases found with
  | error failure => cases hFetched
  | ok value =>
  rcases hGet.of_ok with ⟨fetch, body, rfl, hReply, hBody⟩
  rcases hGet.of_mem (List.mem_singleton_self fetch) with
    ⟨_, reference, hPath, hAsked, _⟩
  have hHolds : Holds gistId remote fetch.reply :=
    ⟨body, value, hReply, hBody, hFetched⟩
  constructor
  case ordered =>
    refine
      ⟨[fetch], written, rfl, Nat.le_refl 1,
        hPatch.length_le, ?_, ?_⟩
    · intro exchange hMem
      exact hGet.method_of_mem hMem
    · intro exchange hMem
      exact .inl (hPatch.method_of_mem hMem)
  case fetched =>
    intro exchange hMem hMethod
    rcases List.mem_append.mp hMem with hMem | hMem
    · rcases hGet.of_mem hMem with
        ⟨_, reference, hPath, hRequest, _⟩
      exact ⟨gistId, reference, hKnown, hPath, hRequest⟩
    · rw [hPatch.method_of_mem hMem] at hMethod
      exact absurd hMethod (by decide)
  case patched =>
    intro exchange hMem hMethod
    rcases List.mem_append.mp hMem with hMem | hMem
    · rw [hGet.method_of_mem hMem] at hMethod
      exact absurd hMethod (by decide)
    · rcases hPatch.of_mem hMem with
        ⟨rfl, other, hOther, hRequest, _⟩
      have hSame : reference = other :=
        Option.some.inj (hPath.symm.trans hOther)
      subst other
      exact
        ⟨gistId, reference, fetch, remote, hKnown, hPath, rfl,
          hAsked, hHolds, hDiffers, hRequest⟩
  case posted =>
    intro exchange hMem hPost
    exact absurd hPost (hNoPost exchange hMem)
  case created =>
    intro exchange hMem hPost
    exact absurd hPost (hNoPost exchange hMem)
  case registry => exact .inl hRegistry
  case failed =>
    intro failure hFailed
    refine ⟨hRegistry, ?_⟩
    intro exchange hMem hPost
    exact absurd hPost (hNoPost exchange hMem)
  case noUpstream =>
    intro hUnknown
    rw [hKnown] at hUnknown
    cases hUnknown

theorem PushRun.isSafePush
    {exchanges : List Exchange}
    {result : Except Failure (RemoteState × GistIds)}
    (hRun :
      PushRun client gistIds package script options exchanges
        result) :
    IsSafePush client gistIds package script options exchanges
      result := by
  cases hRun with
  | noUpstream hUnknown hOff =>
      constructor
      case ordered =>
        exact
          ⟨[], [], rfl, Nat.zero_le 1, Nat.zero_le 1,
            List.forall_mem_nil _, List.forall_mem_nil _⟩
      case registry => exact .inl rfl
      case failed =>
        exact fun _ _ => ⟨rfl, List.forall_mem_nil _⟩
      case noUpstream => exact fun _ _ => ⟨rfl, rfl⟩
      all_goals
        intro exchange hMem
        cases hMem
  | create hUnknown hOn hPost =>
      exact isSafePush_of_create hUnknown hOn hPost
  | notFetched hKnown hGet hFailed =>
      exact isSafePush_of_fetch hKnown hGet rfl
  | upToDate hKnown hGet hFetched hSame =>
      exact isSafePush_of_fetch hKnown hGet rfl
  | update hKnown hGet hFetched hDiffers hPatch =>
      exact
        isSafePush_of_update hKnown hGet hFetched hDiffers
          hPatch

end Safety

/-
  Whatever the store answers, a push that is not dry ends in
  a session that is after exchanges it keeps to.
-/
theorem push_safe
    (client : GistClient)
    (gistIds : GistIds)
    (package script : Text)
    (options : PushOptions) :
    ∃ exchanges result after,
      Performs
          (push client gistIds package script options false)
          outside session exchanges result after ∧
        IsSafePush client gistIds package script options
          exchanges result := by
  rcases performs_push outside session client gistIds package
      script options with
    ⟨exchanges, result, after, hRun, hPerforms⟩
  exact
    ⟨exchanges, result, after, hPerforms, hRun.isSafePush⟩

end Sync

end ScriptWorkspace
