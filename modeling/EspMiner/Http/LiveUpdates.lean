import EspMiner.Asic.Job
import EspMiner.Library.Json
import EspMiner.Library.Run

/-!
# Live updates over the websocket

`main/http_server/cjson_utils.c`, `websocket_api.c` and `websocket.c` with the merging
code of the web interface in `live-data-merge.ts`.  A device state is a JSON object as it
is serialised; `cJSON_Compare` is a parameter.  Reading the state and sending it are steps
of their own, for the handler of a connection and for the task.
-/

namespace EspMiner

open Library

/-- The members of a JSON object, in their order. -/
abbrev JsonMembers := List (List U8 × Json)

namespace JsonMembers

/-- `cJSON_GetObjectItemCaseSensitive`, and a property of an object in the browser. -/
def getItem (members : JsonMembers) (key : List U8) : Option Json :=
  (members.find? fun member => decide (member.1 = key)).map Prod.snd

/-- `merged[key] = value` -/
def setItem : JsonMembers → List U8 → Json → JsonMembers
  | [], key, value => [(key, value)]
  | member :: members, key, value =>
      if member.1 = key then (key, value) :: members else member :: setItem members key value

end JsonMembers

/-! ## The difference of two states -/

section Diff

variable (compare : Json → Json → Bool)

mutual

/-- The body of the loop in `cJSON_GetDiff`: what an item adds to the difference. -/
def diffItem (oldItem : Option Json) : Json → Option Json
  | .object members =>
      match oldItem with
      | none => some (.object members)
      | some oldItem =>
          if compare oldItem (.object members) then none
          else
            match oldItem with
            | .object oldMembers =>
                let diff := diffMembers oldMembers members
                if diff.isEmpty then none else some (.object diff)
            | _ => some (.object members)
  | item =>
      match oldItem with
      | none => some item
      | some oldItem => if compare oldItem item then none else some item

/-- The loop in `cJSON_GetDiff`. -/
def diffMembers (oldMembers : JsonMembers) : List (List U8 × Json) → JsonMembers
  | [] => []
  | (key, item) :: members =>
      match diffItem (oldMembers.getItem key) item with
      | none => diffMembers oldMembers members
      | some diff => (key, diff) :: diffMembers oldMembers members

end

/-- `cJSON_GetDiff` of two objects, where there may be no old one. -/
def cjsonGetDiff (oldJson : Option JsonMembers) (newJson : JsonMembers) : Option JsonMembers :=
  match oldJson with
  | none => some newJson
  | some oldJson =>
      let diff := diffMembers compare oldJson newJson
      if diff.isEmpty then none else some diff

end Diff

/-! ## The browser -/

mutual

/-- `mergeLiveDataUpdate`, where the current value may be undefined. -/
def mergeLiveDataUpdate (current : Option Json) : Json → Json
  | .object update =>
      match current with
      | some (.object members) => .object (mergeMembers members update)
      | _ => .object update
  | update => update

/-- The loop over the entries of the update. -/
def mergeMembers (merged : JsonMembers) : List (List U8 × Json) → JsonMembers
  | [] => merged
  | (key, value) :: update =>
      mergeMembers (merged.setItem key (mergeLiveDataUpdate (merged.getItem key) value)) update

end

/-! ## States are JSON objects -/

mutual

/-- The names in an object, and in the objects under it, are different. -/
def WellFormed : Json → Prop
  | .object members => (members.map Prod.fst).Nodup ∧ WellFormedMembers members
  | _ => True

def WellFormedMembers : List (List U8 × Json) → Prop
  | [] => True
  | (_, item) :: members => WellFormed item ∧ WellFormedMembers members

end

/-- What `system_api_get_full_json` gives. -/
structure DeviceState where
  members : JsonMembers
  wellFormed : WellFormed (.object members)

/-! ## Clients and the task -/

/-- How far `websocket_post_handshake` is: the client is added, its handler has read the
state, or `websocket_api_on_connect` has returned. -/
inductive ConnectStage where
  | added
  | read (state : DeviceState)
  | connected

/-- A client: its socket and the data of the updates it received, in their order.  `due`
marks those that were connected before the update step that is under way. -/
structure ApiClient where
  fd : Nat
  stage : ConnectStage
  received : List JsonMembers
  due : Bool

/-- What the client shows. -/
def ApiClient.view (client : ApiClient) : Json :=
  client.received.foldl (fun shown update => mergeLiveDataUpdate (some shown) (.object update))
    (.object [])

def ApiClient.receive (client : ApiClient) (update : JsonMembers) : ApiClient :=
  { client with received := client.received ++ [update] }

/-- An update between the reading of the state and the broadcast: the baseline and the
new state. -/
structure PendingUpdate where
  last : DeviceState
  current : DeviceState

/-- The task, the clients, and after each update step the state that was serialised with
what a client shows that was connected before. -/
structure WebsocketApi where
  started : Bool
  running : Bool
  lastFullJson : Option DeviceState
  pending : Option PendingUpdate
  clients : List ApiClient
  shown : List (DeviceState × Json)

def WebsocketApi.initial : WebsocketApi where
  started := false
  running := false
  lastFullJson := none
  pending := none
  clients := []
  shown := []

inductive ApiInput where
  | start
  | initBaseline (state : DeviceState)
  | addClient (fd : Nat)
  | onConnect (fd : Nat) (state : DeviceState)
  | sendState (fd : Nat)
  | removeClient (fd : Nat)
  | update (baseline current : DeviceState)
  | broadcast

namespace WebsocketApi

variable (compare : Json → Json → Bool)

/-- The clients, with one of them changed. -/
def changeClient (s : WebsocketApi) (fd : Nat) (change : ApiClient → ApiClient) : WebsocketApi :=
  { s with clients := s.clients.map fun client => if client.fd = fd then change client else client }

/-- `websocket_add_client`, when there is a slot. -/
def addClient (s : WebsocketApi) (fd : Nat) : WebsocketApi :=
  if s.clients.any fun client => decide (client.fd = fd) then s
  else { s with clients := s.clients ++ [⟨fd, .added, [], false⟩] }

/-- `websocket_api_on_connect` up to the sending of the state. -/
def onConnect (s : WebsocketApi) (fd : Nat) (state : DeviceState) : WebsocketApi :=
  s.changeClient fd fun client =>
    match client.stage with
    | .added => { client with stage := if s.started then .read state else .connected }
    | _ => client

/-- The rest of `websocket_api_on_connect`: the difference to nothing is sent. -/
def sendState (s : WebsocketApi) (fd : Nat) : WebsocketApi :=
  s.changeClient fd fun client =>
    match client.stage with
    | .read state =>
        match cjsonGetDiff compare none state.members with
        | none => { client with stage := .connected }
        | some diff => { client.receive diff with stage := .connected }
    | _ => client

/-- One turn of `websocket_api_task` up to the broadcast. -/
def update (s : WebsocketApi) (baseline current : DeviceState) : WebsocketApi :=
  if s.running = false ∨ s.pending.isSome then s
  else if s.clients = [] then { s with lastFullJson := none }
  else
    { s with
      lastFullJson := some current
      pending := some ⟨s.lastFullJson.getD baseline, current⟩
      clients := s.clients.map fun client =>
        { client with due := match client.stage with
          | .connected => true
          | _ => false } }

/-- `websocket_broadcast` of the difference, if there is one. -/
def broadcast (s : WebsocketApi) : WebsocketApi :=
  match s.pending with
  | none => s
  | some ⟨last, current⟩ =>
      let clients := match cjsonGetDiff compare (some last.members) current.members with
        | none => s.clients
        | some diff => s.clients.map fun client => client.receive diff
      { s with
        pending := none
        clients := clients
        shown := (clients.filter ApiClient.due).map (fun client => (current, client.view))
          ++ s.shown }

def step (s : WebsocketApi) : ApiInput → WebsocketApi
  | .start => { s with started := true }
  | .initBaseline state =>
      if s.started ∧ s.running = false then
        { s with running := true, lastFullJson := some state }
      else s
  | .addClient fd => s.addClient fd
  | .onConnect fd state => s.onConnect fd state
  | .sendState fd => s.sendState compare fd
  | .removeClient fd => { s with clients := s.clients.filter fun client => decide (client.fd ≠ fd) }
  | .update baseline current => s.update baseline current
  | .broadcast => s.broadcast compare

end WebsocketApi

end EspMiner
