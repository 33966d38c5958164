import ScriptWorkspace.Gist.Address
import ScriptWorkspace.Gist.Basic
import ScriptWorkspace.Gist.Status
import ScriptWorkspace.Json.Parser
import ScriptWorkspace.Session.Basic

/-
  Asking the store of gists.

  Every request expects one status, and its answer has to be
  JSON of the right shape. No request is repeated.

  Key definitions include:
    * `GistClient`
    * `GistClient.withToken`
    * `GistClient.headers`
    * `GistClient.retrieve`
    * `GistClient.update`
    * `GistClient.create`
-/

namespace ScriptWorkspace

/- What is sent along with every request. -/
structure GistClient where
  token : Option Text
deriving DecidableEq, Repr

namespace GistClient

variable {ω : Type}

/- A client without a token. -/
def anonymous : GistClient := { token := none }

/- The client with a token; a blank one counts as none. -/
def withToken
    (token : Option Text) : Except Failure GistClient :=
  let found := token.filter fun text => !text.isEmpty
  if (found.getD []).all fun c => c.toNat < 0x80 then
    .ok { token := found }
  else
    .error (.unexpected .notText)

------------------------------------------------------------
-- Requests
------------------------------------------------------------

/- What the program calls itself. -/
def agent : Text :=
  "bikecase <https://github.com/qryxip/cargo-scripts>"

/- The kind of answer that is asked for. -/
def accepted : Text := "application/vnd.github+json"

/- The headers of a request, each with its name. -/
def headers (request : Request) : List (Text × Text) :=
  let authorization :=
    request.token.map fun token =>
      (("authorization" : Text), ("token " : Text) ++ token)
  let contentType :=
    request.payload.map fun _ =>
      (("content-type" : Text), ("application/json" : Text))
  [(("accept" : Text), accepted), ("user-agent", agent)] ++
    authorization.toList ++ contentType.toList

/- The value of an answer; a mark in front is left out. -/
def readBody (body : Text) : Option Json :=
  match body with
  | c :: rest =>
    if c.toNat = 0xfeff then Json.parse? rest
    else Json.parse? body
  | [] => none

/- Send a request that expects one status. -/
def request
    (client : GistClient)
    (method path : Text)
    (expected : Nat)
    (payload : Option Json) : Action ω Json := do
  let some reference := Address.read? path
    | throw (.unexpected .invalidUrl)
  let shown := Address.shown reference
  Action.logInfo [method, " ", shown]
  let reply ←
    Action.sendRequest
      { method, url := Address.requested reference
        token := client.token, payload }
  match reply with
  | .failure kind =>
    throw (.gist (.transport method shown kind))
  | .answer status body =>
    Action.logInfo
      [Text.ofNat status, " ", Status.phrase status]
    if status ≠ expected then
      throw (.gist (.status method shown expected status))
    match readBody body with
    | some value => return value
    | none => throw (.gist (.notJson method shown))

/- The path of a gist. -/
def pathOf (gistId : Text) : Text :=
  ("gists/" : Text) ++ gistId

/- A member of an object that is sent. -/
def sent (key : Text) (value : Json) :
    Option Text × Json :=
  (some key, value)

/- A string that is sent. -/
def sentText (text : Text) : Json :=
  .string (some text)

/- The files of a gist with one file. -/
def sentFile (filename content : Text) : Json :=
  .object
    [sent filename
      (.object [sent "content" (sentText content)])]

------------------------------------------------------------
-- Gists
------------------------------------------------------------

/- The script that a gist holds. -/
def retrieve
    (client : GistClient)
    (gistId : Text) : Action ω RemoteScript := do
  let value ←
    client.request "GET" (pathOf gistId) 200 none
  let some gist := Gist.ofJson? value
    | throw (.gist (.gistShape gistId))
  let file ← Action.ofExcept gist.rustFile
  return { gistId, filename := file.filename
           content := file.content
           description := gist.description.getD [] }

/- Put another content and description into a gist. -/
def update
    (client : GistClient)
    (gistId filename content description : Text) :
    Action ω Unit := do
  let payload : Json :=
    .object
      [sent "description" (sentText description),
        sent "files" (sentFile filename content)]
  let _ ←
    client.request "PATCH" (pathOf gistId) 200 (some payload)
  Action.logInfo ["Updated `", gistId, "`"]

/- Make a gist with one file. -/
def create
    (client : GistClient)
    (filename content description : Text)
    (isPublic : Bool) : Action ω Text := do
  let payload : Json :=
    .object
      [sent "files" (sentFile filename content),
        sent "description" (sentText description),
        sent "public" (.bool isPublic)]
  let value ←
    client.request "POST" "gists" 201 (some payload)
  let some gistId := Gist.createdId? value
    | throw (.gist .createdShape)
  Action.logInfo ["Created `", gistId, "`"]
  return gistId

end GistClient

end ScriptWorkspace
