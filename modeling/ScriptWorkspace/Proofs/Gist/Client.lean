import ScriptWorkspace.Gist.Client
import ScriptWorkspace.Proofs.Session.Perform

/-
  What the client of the store of gists exchanges.

  Each of its operations sends one request, or none if the
  path has no address, and comes to a result by reading the
  reply. No reply makes it send another request.

  Main declarations:
    * `Reply.value`
    * `GistClient.Requests`
    * `GistClient.performs_request`
    * `GistClient.performs_retrieve`
    * `GistClient.performs_update`
    * `GistClient.performs_create`
-/

namespace ScriptWorkspace

variable {ω : Type}

------------------------------------------------------------
-- Replies
------------------------------------------------------------

/- The value of a reply to a request to a shown address. -/
def Reply.value
    (method shown : Text)
    (expected : Nat) : Reply → Except Failure Json
  | .failure kind =>
    .error (.gist (.transport method shown kind))
  | .answer status body =>
    if status = expected then
      match GistClient.readBody body with
      | some value => .ok value
      | none => .error (.gist (.notJson method shown))
    else
      .error (.gist (.status method shown expected status))

/- A value is read from an answer with the status only. -/
theorem Reply.of_value_eq_ok
    {method shown : Text}
    {expected : Nat}
    {reply : Reply}
    {value : Json}
    (hValue : reply.value method shown expected = .ok value) :
    ∃ body,
      reply = .answer expected body ∧
        GistClient.readBody body = some value := by
  cases reply with
  | failure kind => simp [Reply.value] at hValue
  | answer status body =>
      by_cases hStatus : status = expected
      · cases hBody : GistClient.readBody body with
        | none => simp [Reply.value, hStatus, hBody] at hValue
        | some found =>
            simp only [Reply.value, hStatus, if_true, hBody,
              Except.ok.injEq] at hValue
            exact ⟨body, by rw [hStatus], by rw [hBody, hValue]⟩
      · simp [Reply.value, hStatus] at hValue

theorem Reply.value_answer
    (method shown : Text)
    (expected : Nat)
    {body : Text}
    {value : Json}
    (hBody : GistClient.readBody body = some value) :
    (Reply.answer expected body).value method shown expected =
      .ok value := by
  simp [Reply.value, hBody]

namespace GistClient

/- The script that the description of a gist holds. -/
def scriptIn
    (gistId : Text)
    (value : Json) : Except Failure RemoteScript := do
  let some gist := Gist.ofJson? value
    | .error (.gist (.gistShape gistId))
  let file ← gist.rustFile
  return { gistId, filename := file.filename
           content := file.content
           description := gist.description.getD [] }

/- The id in the description of a gist that was created. -/
def createdIn (value : Json) : Except Failure Text :=
  match Gist.createdId? value with
  | some gistId => .ok gistId
  | none => .error (.gist .createdShape)

------------------------------------------------------------
-- Requests
------------------------------------------------------------

/- What is sent to change a file of a gist. -/
def changedGist (filename content description : Text) : Json :=
  .object
    [sent "description" (sentText description),
      sent "files" (sentFile filename content)]

/- What is sent to make a gist with one file. -/
def newGist
    (filename content description : Text)
    (isPublic : Bool) : Json :=
  .object
    [sent "files" (sentFile filename content),
      sent "description" (sentText description),
      sent "public" (.bool isPublic)]

/- The request to an address of the store. -/
def requestTo
    (client : GistClient)
    (method : Text)
    (reference : Address.Reference)
    (payload : Option Json) : Request :=
  { method
    url := Address.requested reference
    token := client.token
    payload }

/-
  What is exchanged when a request goes to a path, and the
  value that comes of it.
-/
inductive Requests
    (client : GistClient)
    (method path : Text)
    (expected : Nat)
    (payload : Option Json) :
    List Exchange → Except Failure Json → Prop
  | noAddress
      (hPath : Address.read? path = none) :
      Requests client method path expected payload []
        (.error (.unexpected .invalidUrl))
  | answered
      {reference : Address.Reference}
      (hPath : Address.read? path = some reference)
      (reply : Reply) :
      Requests client method path expected payload
        [{ request := client.requestTo method reference payload
           reply }]
        (reply.value method (Address.shown reference) expected)

namespace Requests

variable {client : GistClient}
variable {method path : Text}
variable {expected : Nat}
variable {payload : Option Json}
variable {exchanges : List Exchange}
variable {found : Except Failure Json}

theorem length_le
    (hRequests :
      client.Requests method path expected payload exchanges
        found) :
    exchanges.length ≤ 1 := by
  cases hRequests with
  | noAddress hPath => exact Nat.zero_le 1
  | answered hPath reply => exact Nat.le_refl 1

/- What is sent, if anything is sent. -/
theorem of_mem
    (hRequests :
      client.Requests method path expected payload exchanges
        found)
    {exchange : Exchange}
    (hMem : exchange ∈ exchanges) :
    exchanges = [exchange] ∧
      ∃ reference,
        Address.read? path = some reference ∧
          exchange.request =
            client.requestTo method reference payload ∧
          found =
            exchange.reply.value method
              (Address.shown reference) expected := by
  cases hRequests with
  | noAddress hPath => cases hMem
  | answered hPath reply =>
      rw [List.mem_singleton] at hMem
      subst hMem
      exact ⟨rfl, _, hPath, rfl, rfl⟩

/- Every request that is sent has the method. -/
theorem method_of_mem
    (hRequests :
      client.Requests method path expected payload exchanges
        found)
    {exchange : Exchange}
    (hMem : exchange ∈ exchanges) :
    exchange.request.method = method := by
  rcases hRequests.of_mem hMem with ⟨_, _, _, hRequest, _⟩
  rw [hRequest]
  rfl

/- A value comes of an answer with the expected status. -/
theorem of_ok
    {value : Json}
    (hRequests :
      client.Requests method path expected payload exchanges
        (.ok value)) :
    ∃ exchange body,
      exchanges = [exchange] ∧
        exchange.reply = .answer expected body ∧
        readBody body = some value := by
  generalize hFound : Except.ok value = found at hRequests
  cases hRequests with
  | noAddress hPath => cases hFound
  | answered hPath reply =>
      rcases Reply.of_value_eq_ok hFound.symm with
        ⟨body, hReply, hBody⟩
      exact ⟨_, body, rfl, hReply, hBody⟩

end Requests

variable (outside : Outside ω) (session : Session ω)

/- A reply is turned into a value after it was logged. -/
theorem performs_request
    (client : GistClient)
    (method path : Text)
    (expected : Nat)
    (payload : Option Json) :
    ∃ exchanges found after,
      client.Requests method path expected payload exchanges
          found ∧
        Performs (client.request method path expected payload)
          outside session exchanges found after := by
  cases hPath : Address.read? path with
  | none =>
      refine ⟨[], _, session, .noAddress hPath, ?_⟩
      unfold request
      rw [hPath]
      exact .throw _
  | some reference =>
      let shown := Address.shown reference
      rcases Performs.logInfo outside session
          [method, " ", shown] with
        ⟨asking, hLog⟩
      rcases Performs.sendRequest outside asking
          (client.requestTo method reference payload) with
        ⟨reply, replied, hSend⟩
      cases reply with
      | failure kind =>
          refine
            ⟨_, _, replied, .answered hPath (.failure kind), ?_⟩
          unfold request
          rw [hPath]
          exact hLog.bind_quiet (hSend.bind_ok (.throw _))
      | answer status body =>
          rcases Performs.logInfo outside replied
              [Text.ofNat status, " ", Status.phrase status] with
            ⟨after, hStatus⟩
          refine
            ⟨_, _, after,
              .answered hPath (.answer status body), ?_⟩
          unfold request
          rw [hPath]
          refine
            hLog.bind_quiet
              (hSend.bind_ok (hStatus.bind_quiet ?_))
          by_cases hExpected : status = expected
          · rw [if_neg (not_not_intro hExpected), Reply.value,
              if_pos hExpected]
            cases readBody body with
            | none => exact .throw _
            | some value => exact .pure value
          · rw [if_pos hExpected, Reply.value,
              if_neg hExpected]
            exact (Performs.throw _).bind_error _

/- Fetching a gist is one request, and reads its value. -/
theorem performs_retrieve
    (client : GistClient)
    (gistId : Text) :
    ∃ exchanges found after,
      client.Requests "GET" (pathOf gistId) 200 none exchanges
          found ∧
        Performs (client.retrieve gistId) outside session
          exchanges (found.bind (scriptIn gistId)) after := by
  rcases client.performs_request outside session "GET"
      (pathOf gistId) 200 none with
    ⟨exchanges, found, after, hRequests, hRequest⟩
  refine ⟨exchanges, found, after, hRequests, ?_⟩
  unfold retrieve
  cases found with
  | error failure => exact hRequest.bind_error _
  | ok value =>
      rw [← List.append_nil exchanges]
      refine hRequest.bind_ok ?_
      simp only [Except.bind, scriptIn]
      cases Gist.ofJson? value with
      | none => exact .throw _
      | some gist =>
          refine Performs.ofExcept_bind fun file => ?_
          exact .pure _

/- Changing a gist is one request. -/
theorem performs_update
    (client : GistClient)
    (gistId filename content description : Text) :
    ∃ exchanges found after,
      client.Requests "PATCH" (pathOf gistId) 200
          (some (changedGist filename content description))
          exchanges found ∧
        Performs
          (client.update gistId filename content description)
          outside session exchanges (found.map fun _ => ())
          after := by
  rcases client.performs_request outside session "PATCH"
      (pathOf gistId) 200
      (some (changedGist filename content description)) with
    ⟨exchanges, found, replied, hRequests, hRequest⟩
  cases found with
  | error failure =>
      exact
        ⟨exchanges, _, replied, hRequests,
          hRequest.bind_error _⟩
  | ok value =>
      rcases Performs.logInfo outside replied
          ["Updated `", gistId, "`"] with
        ⟨after, hLog⟩
      refine ⟨exchanges, _, after, hRequests, ?_⟩
      rw [← List.append_nil exchanges]
      exact hRequest.bind_ok hLog

/- Making a gist is one request, and reads its id. -/
theorem performs_create
    (client : GistClient)
    (filename content description : Text)
    (isPublic : Bool) :
    ∃ exchanges found after,
      client.Requests "POST" "gists" 201
          (some (newGist filename content description isPublic))
          exchanges found ∧
        Performs
          (client.create filename content description isPublic)
          outside session exchanges (found.bind createdIn)
          after := by
  rcases client.performs_request outside session "POST"
      "gists" 201
      (some (newGist filename content description isPublic)) with
    ⟨exchanges, found, replied, hRequests, hRequest⟩
  cases found with
  | error failure =>
      exact
        ⟨exchanges, _, replied, hRequests,
          hRequest.bind_error _⟩
  | ok value =>
      cases hId : Gist.createdId? value with
      | none =>
          refine ⟨exchanges, _, replied, hRequests, ?_⟩
          rw [← List.append_nil exchanges]
          refine hRequest.bind_ok ?_
          simp only [Except.bind, createdIn, hId]
          exact .throw _
      | some gistId =>
          rcases Performs.logInfo outside replied
              ["Created `", gistId, "`"] with
            ⟨after, hLog⟩
          refine ⟨exchanges, _, after, hRequests, ?_⟩
          rw [← List.append_nil exchanges]
          refine hRequest.bind_ok ?_
          simp only [Except.bind, createdIn, hId]
          exact hLog.bind_quiet (.pure gistId)

end GistClient

end ScriptWorkspace
