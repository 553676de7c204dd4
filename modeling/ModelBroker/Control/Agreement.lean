import ModelBroker.Control.Requests

/-!
# The client and the helper speak one protocol

The broker's client (`servicecontrol.py`) and the helper share no code. For a
codec that gives back the documents they exchange:

* `requests_agree`: what `exchange` writes is accepted by `parse_request`, and read
  as the same request.
* `replies_agree`: the reply with a container's status is read as that status.
* `allowedVariables_get`: a container created with some settings reports them.
* `agreement`: the three of them, for every accepted configuration.
-/

namespace ModelBroker.Helper

open Python

variable {config : Config} {service : Service} {parse : String → Except LoadsError Json}

/-! ## Requests -/

/-- The settings that are sent with an operation. -/
def sentSettings (operation : String) (settings : Dict String String) : Dict String String :=
  if operation = "start" then settings else ∅

/-- The members of a message. -/
def messageMembers (id operation name : String) (settings : Dict String String) :
    List (String × Json) :=
  [("version", .int Control.protocolVersion), ("id", .str id), ("request", .str operation),
      ("service", .str name)] ++
    if operation = "start" then [("settings", .obj (settingsMembers settings.entries))] else []

theorem messageMembers_names (id operation name : String) (settings : Dict String String) :
    (messageMembers id operation name settings).map Prod.fst =
      ["version", "id", "request", "service"] ++ if operation = "start" then ["settings"] else [] := by
  unfold messageMembers
  split_ifs <;> rfl

/-- The message of a request is a valid object, with the same contents. -/
theorem valid_requestMessage {id operation name : String} {settings : Dict String String}
    (hid : id ≠ "") (hop : operation ∈ operations) (hs : config.services.get name = some service)
    (hsettings : ∀ e ∈ settings.entries, service.Allows e) :
    ∃ message, (Control.requestMessage id operation name (some settings)).dict? = some message ∧
      Valid config message ⟨id, operation, service, sentSettings operation settings⟩ := by
  have hnames := messageMembers_names id operation name settings
  have hnodup : ((messageMembers id operation name settings).map Prod.fst).Nodup := by
    rw [hnames]
    split_ifs <;> decide
  have hentries := Dict.entries_ofList hnodup
  have hget : ∀ key value, (key, value) ∈ messageMembers id operation name settings →
      (Dict.ofList (messageMembers id operation name settings)).get key = some value :=
    fun key value hmem => Dict.get_eq_some.2 (hentries.symm ▸ hmem)
  refine ⟨Dict.ofList (messageMembers id operation name settings), rfl, ?_⟩
  refine ⟨fun key => ?_, hget _ _ ?_, hget _ _ ?_, hid, hget _ _ ?_, hop, ⟨name, hget _ _ ?_, hs⟩, ?_⟩
  · rw [Dict.keys, hentries, hnames, List.mem_append]
    by_cases hstart : operation = "start" <;> simp [hstart]
  iterate 4 · simp [messageMembers, Control.protocolVersion]
  · by_cases hstart : operation = "start"
    · have hsent : sentSettings operation settings = settings := if_pos hstart
      have hnames : ((settingsMembers settings.entries).map Prod.fst).Nodup := by
        rw [settingsMembers, List.map_map]
        exact settings.nodup
      rw [if_pos hstart]
      dsimp only
      rw [hsent]
      refine ⟨_, _, hget _ (.obj (settingsMembers settings.entries)) ?_, rfl,
        Dict.entries_ofList hnames, hsettings⟩
      simp [messageMembers, hstart]
    · rw [if_neg hstart]
      exact if_neg hstart

/-- A line is read as a whole, if it fits and has no other line break. -/
theorem readLine_eq {body : List UInt8} (hbody : newline ∉ body) {limit : ℕ}
    (hlimit : body.length < limit) (rest : List UInt8) :
    readLine limit (body ++ newline :: rest) = body ++ [newline] := by
  induction body generalizing limit with
  | nil =>
    obtain ⟨limit, rfl⟩ := Nat.exists_eq_succ_of_ne_zero (Nat.ne_of_gt hlimit)
    simp [readLine]
  | cons b body ih =>
    obtain ⟨limit, rfl⟩ := Nat.exists_eq_succ_of_ne_zero (Nat.ne_of_gt (Nat.zero_lt_of_lt hlimit))
    have hb : b ≠ newline := fun heq => hbody (heq ▸ List.mem_cons_self ..)
    have hrest := ih (fun hmem => hbody (List.mem_cons_of_mem _ hmem)) (Nat.lt_of_succ_lt_succ hlimit)
    rw [List.cons_append, readLine, if_neg hb, hrest]
    rfl

/-! ## Replies -/

/-- A document that is an object, or `null`, with what it holds. -/
def IsObject (document : Json) (d : Dict String Json) : Prop :=
  document.dict? = some d ∨ (document = .null ∧ d = ∅)

theorem dictOrEmpty_of_isObject {document : Json} {d : Dict String Json} (h : IsObject document d) :
    dictOrEmpty document = .ok d := by
  rcases h with h | ⟨rfl, rfl⟩
  · cases document with
    | obj members =>
      cases members with
      | nil => cases h; rfl
      | cons => cases h; rfl
    | null | bool | int | float | str | arr => cases h
  · rfl

/-- A document of `docker inspect` whose fields have Docker's types: the state is
    an object with a text, an exit code and a flag, as far as they are there, and
    the environment is a list of texts. -/
def Inspected (info : Json) (text : String) (exitCode : Option ℤ) (oom : Bool)
    (entries : List String) : Prop :=
  ∃ d state config health, info.dict? = some d ∧ IsObject (Json.field d "State") state ∧
    IsObject (Json.field d "Config") config ∧ IsObject (Json.field state "Health") health ∧
    (state.get "Status" = some (.str text) ∨ (state.get "Status" = none ∧ text = "unknown")) ∧
    Json.field state "ExitCode" = (exitCode.map Json.int).getD .null ∧
    (state.get "OOMKilled" = some (.bool oom) ∨
      (Json.field state "OOMKilled" = .null ∧ oom = false)) ∧
    (Json.field config "Env" = .arr (entries.map Json.str) ∨
      (Json.field config "Env" = .null ∧ entries = []))

/-- The exit code that is reported: that of a container that is gone. -/
def reportedCode (text : String) (exitCode : Option ℤ) : Option ℤ :=
  if goneStates.contains text then exitCode else none

/-- The members of a reported status. -/
def statusMembers (text : String) (exitCode : Option ℤ) (oom : Bool) (health : Json)
    (settings : Dict String String) : List (String × Json) :=
  [("state", .str text), ("exit_code", ((reportedCode text exitCode).map Json.int).getD .null),
    ("oom_killed", .bool oom), ("health", health), ("settings", .obj (settingsMembers settings.entries))]

theorem stringsOrEmpty_of_env {document : Json} {entries : List String}
    (h : document = .arr (entries.map Json.str) ∨ (document = .null ∧ entries = [])) :
    stringsOrEmpty document = .ok entries := by
  rcases h with rfl | ⟨rfl, rfl⟩
  · have hstrings : (entries.map Json.str).mapM Json.str? = some entries := by
      rw [option_mapM_eq_some, List.forall₂_map_left_iff, List.forall₂_same]
      exact fun _ _ => rfl
    unfold stringsOrEmpty
    split_ifs with htruthy
    · dsimp only
      rw [hstrings]
    · cases entries with
      | nil => rfl
      | cons => exact absurd rfl htruthy
  · rfl

theorem containerStatus_of_inspected {info : Json} {text : String} {exitCode : Option ℤ}
    {oom : Bool} {entries : List String} (h : Inspected info text exitCode oom entries) :
    ∃ health, containerStatus info service =
      .ok (.obj (statusMembers text exitCode oom health (allowedVariables service entries))) := by
  obtain ⟨d, state, config, health, hd, hstate, hconfig, hhealth, htext, hcode, hoom, henv⟩ := h
  refine ⟨Json.field health "Status", ?_⟩
  have hstatus : ((state.get "Status").getD (.str "unknown")).toStr = text := by
    rcases htext with htext | ⟨htext, rfl⟩ <;> rw [htext] <;> rfl
  have hflag : ((state.get "OOMKilled").getD (.bool false)).truthy = oom := by
    rcases hoom with hoom | ⟨hnull, rfl⟩
    · rw [hoom]
      rfl
    · unfold Json.field at hnull
      cases hget : state.get "OOMKilled" with
      | none => rfl
      | some value =>
        rw [hget] at hnull
        obtain rfl : value = .null := hnull
        rfl
  have hreported : (if goneStates.contains text then Json.field state "ExitCode" else .null) =
      ((reportedCode text exitCode).map Json.int).getD .null := by
    unfold reportedCode
    split_ifs
    · exact hcode
    · rfl
  unfold containerStatus
  rw [hd]
  refine except_bind_ok.2 ⟨_, dictOrEmpty_of_isObject hstate, ?_⟩
  refine except_bind_ok.2 ⟨_, dictOrEmpty_of_isObject hconfig, ?_⟩
  refine except_bind_ok.2 ⟨_, stringsOrEmpty_of_env henv, ?_⟩
  refine except_bind_ok.2 ⟨_, dictOrEmpty_of_isObject hhealth, ?_⟩
  rw [hstatus, hreported, hflag]
  rfl

/-- What the broker reads of a container's status. -/
structure Reported (status : Control.ServiceStatus) (state : String) (exitCode : Option ℤ)
    (oom : Bool) (settings : Dict String String) : Prop where
  state : status.state = state
  exitCode : status.exitCode = exitCode
  oomKilled : status.oomKilled = oom
  settings : ∀ name, status.settings.get name = settings.get name

/-- An object of texts is read as it was sent, with its members sorted. -/
theorem settings?_sortMembers (settings : Dict String String) :
    ∃ read, Control.settings? (.obj (Json.sortMembers (settingsMembers settings.entries))) =
        some read ∧ ∀ name, read.get name = settings.get name := by
  have hnames : ((settingsMembers settings.entries).map Prod.fst).Nodup := by
    rw [settingsMembers, List.map_map]
    exact settings.nodup
  have hsent : Dict.ofList (settingsMembers settings.entries) =
      settings.mapValues fun _ value => .str value :=
    Dict.ofList_entries (settings.mapValues fun _ value => Json.str value)
  have hget : ∀ name, (Dict.ofList (Json.sortMembers (settingsMembers settings.entries))).get name =
      (settings.get name).map Json.str := by
    intro name
    rw [Json.get_sortMembers hnames, hsent, Dict.get_mapValues, Option.map_map]
    rfl
  have hall : (Dict.ofList (Json.sortMembers (settingsMembers settings.entries))).entries.all
      (fun e => e.2.str?.isSome) = true := by
    refine List.all_eq_true.2 fun e he => ?_
    have he : (settings.get e.1).map Json.str = some e.2 := by
      rw [← hget, Dict.get_eq_some]
      exact he
    obtain ⟨value, -, hvalue⟩ := Option.map_eq_some_iff.1 he
    rw [← hvalue]
    rfl
  refine ⟨_, if_pos hall, fun name => ?_⟩
  rw [Dict.get_mapValues, hget, Option.map_map]
  cases settings.get name <;> rfl

theorem parseStatus_statusMembers (text : String) (exitCode : Option ℤ) (oom : Bool)
    (health : Json) (settings : Dict String String) :
    ∃ status, Control.parseStatus
        (Json.sortKeys (.obj (statusMembers text exitCode oom health settings))) = .ok status ∧
      Reported status text (reportedCode text exitCode) oom settings := by
  have hnames : ((statusMembers text exitCode oom health settings).map Prod.fst).Nodup := by
    show ["state", "exit_code", "oom_killed", "health", "settings"].Nodup
    decide
  obtain ⟨read, hread, hget⟩ := settings?_sortMembers settings
  have hcode : exitCode? (((reportedCode text exitCode).map Json.int).getD .null).sortKeys =
      some (reportedCode text exitCode) := by
    cases reportedCode text exitCode <;> rfl
  refine ⟨⟨text, reportedCode text exitCode, oom, read⟩, ?_, ⟨rfl, rfl, rfl, hget⟩⟩
  have hstate := Json.field_sorted hnames (.head _)
  have hexit := Json.field_sorted hnames (.tail _ (.head _))
  have hoom := Json.field_sorted hnames (.tail _ (.tail _ (.head _)))
  have hsettings := Json.field_sorted hnames (.tail _ (.tail _ (.tail _ (.tail _ (.head _)))))
  rw [Json.sortKeys_str] at hstate
  rw [Json.sortKeys_bool] at hoom
  rw [Json.sortKeys_obj] at hsettings
  unfold Control.parseStatus
  rw [Json.sortKeys_obj, Json.dict?, Option.getD_some]
  dsimp only
  rw [hstate, hexit, hoom, hsettings, hcode, hread]
  rfl

/-- The reply to an accepted request is read as the status in it. -/
theorem readResponse_accepted {codec : Codec} {line : List UInt8} {id : String} {result : Json}
    (hline : codec.loads line = .ok (accepted id result).sortKeys) (operation name : String) :
    Control.readResponse codec line id operation name =
      Control.parseStatus result.sortKeys := by
  have hnames : ([("ok", Json.bool true), ("version", .int protocolVersion), ("id", .str id),
      ("result", result)].map Prod.fst).Nodup := by
    show ["ok", "version", "id", "result"].Nodup
    decide
  have hok := Json.field_sorted hnames (.head _)
  have hversion := Json.field_sorted hnames (.tail _ (.head _))
  have hid := Json.field_sorted hnames (.tail _ (.tail _ (.head _)))
  have hresult := Json.field_sorted hnames (.tail _ (.tail _ (.tail _ (.head _))))
  rw [Json.sortKeys_bool] at hok
  rw [Json.sortKeys_int] at hversion
  rw [Json.sortKeys_str] at hid
  unfold Control.readResponse
  rw [hline]
  dsimp only
  rw [accepted, Json.sortKeys_obj, Json.dict?]
  dsimp only
  rw [hok, hversion, hid, hresult]
  simp [Json.bool?, Json.equalsStr, Json.equalsInt, protocolVersion, Control.protocolVersion]

/-! ## Settings -/

/-- The environment list of a container that was created with some settings: each
    has its entry, and no later entry has its name. -/
def Created (settings : Dict String String) (entries : List String) : Prop :=
  ∀ e ∈ settings.entries, ∃ before after,
    entries = before ++ (e.1 ++ String.singleton '=' ++ e.2) :: after ∧
      ∀ entry ∈ after, (partition '=' entry).1 ≠ e.1

/-- Entries with other names leave a variable as it is. -/
theorem foldl_allowedVariable_get {entries : List String} {name : String}
    (h : ∀ entry ∈ entries, (partition '=' entry).1 ≠ name) (environment : Dict String String) :
    (entries.foldl (allowedVariable service) environment).get name = environment.get name := by
  induction entries generalizing environment with
  | nil => rfl
  | cons entry entries ih =>
    obtain ⟨hentry, hrest⟩ := List.forall_mem_cons.1 h
    rw [List.foldl_cons, ih hrest]
    unfold allowedVariable
    dsimp only
    split_ifs
    · rw [Dict.get_insert, if_neg hentry.symm]
    · rfl

/-- A container that was created with allowed settings reports exactly their
    values, whatever the values contain. -/
theorem allowedVariables_get {name : String} (hsound : service.Sound name)
    {settings : Dict String String} (hsettings : ∀ e ∈ settings.entries, service.Allows e)
    {entries : List String} (hcreated : Created settings entries) {e : String × String}
    (he : e ∈ settings.entries) :
    (allowedVariables service entries).get e.1 = some e.2 := by
  obtain ⟨before, after, rfl, hafter⟩ := hcreated e he
  have hallowed : e.1 ∈ service.allowedEnv := (hsettings e he).1
  have hparts : partition '=' (e.1 ++ String.singleton '=' ++ e.2) = (e.1, e.2) :=
    partition_append e.2 (no_separator (hsound.allowed e.1 hallowed))
  show ((before ++ _ :: after).foldl (allowedVariable service) ∅).get e.1 = some e.2
  rw [List.foldl_append, List.foldl_cons, foldl_allowedVariable_get hafter]
  unfold allowedVariable
  rw [hparts]
  dsimp only
  rw [if_pos (by simpa using hallowed), Dict.get_insert, if_pos rfl]

/-! ## Both directions -/

/-- What `exchange` writes for a valid request is accepted as that request, if the
    line is decoded to what was encoded. -/
theorem requests_agree {id operation name : String} {settings : Dict String String}
    (hid : id ≠ "") (hop : operation ∈ operations) (hs : config.services.get name = some service)
    (hsettings : ∀ e ∈ settings.entries, service.Allows e) {line : List UInt8}
    (hline : Decodes parse line (Control.requestMessage id operation name (some settings))) :
    parseRequest parse line config =
      .ok ⟨id, operation, service, sentSettings operation settings⟩ := by
  obtain ⟨message, hmessage, hvalid⟩ := valid_requestMessage hid hop hs hsettings
  exact parseRequest_eq_ok.2 ⟨_, message, hline, hmessage, hvalid⟩

/-- A line that fits is what the helper reads, whatever follows it. -/
theorem admitRequest_line {c : Controller} {allowedGid : ℤ} {connection : Connection}
    (hpeer : peerIsAuthorised connection.credentials allowedGid connection.readStatus = true)
    {body rest : List UInt8} (hsent : connection.received = .bytes (body ++ newline :: rest))
    (hbody : newline ∉ body) (hfits : (body ++ [newline]).length ≤ maxMessageBytes) :
    admitRequest c parse allowedGid connection =
      parseRequest parse (body ++ [newline]) c.config := by
  have hlength : body.length < maxMessageBytes + 1 := by
    rw [List.length_append] at hfits
    omega
  unfold admitRequest
  rw [hpeer, hsent]
  dsimp only
  rw [readLine_eq hbody hlength, if_neg (Nat.not_lt.2 hfits)]
  rfl

/-- The reply with a container's status is read as that status. -/
theorem replies_agree (service : Service) {info : Json} {state : String} {exitCode : Option ℤ}
    {oom : Bool} {entries : List String} (h : Inspected info state exitCode oom entries) :
    ∃ result, containerStatus info service = .ok result ∧
      ∀ (codec : Codec) (line : List UInt8) (id operation name : String),
        codec.loads line = .ok (accepted id result).sortKeys →
        ∃ status, Control.readResponse codec line id operation name = .ok status ∧
          Reported status state (reportedCode state exitCode) oom
            (allowedVariables service entries) := by
  obtain ⟨health, hstatus⟩ : ∃ health, containerStatus info service = .ok (.obj
      (statusMembers state exitCode oom health (allowedVariables service entries))) :=
    containerStatus_of_inspected h
  refine ⟨_, hstatus, fun codec line id operation name hline => ?_⟩
  rw [readResponse_accepted hline]
  exact parseStatus_statusMembers state exitCode oom health _

/-- The client and the helper agree. For every service of an accepted
    configuration: a valid request whose line fits is admitted as it was sent; and
    the reply with the status of an inspected container is read as that status, in
    which the settings that the container was created with have their values. -/
theorem agreement {sections : Dict String Section} {config : Config}
    (hload : loadConfig sections = .ok config) {name : String} {service : Service}
    (hs : config.services.get name = some service) (codec : Codec)
    (parse : String → Except LoadsError Json) :
    (∀ id operation settings, id ≠ "" → operation ∈ operations →
      (∀ e ∈ settings.entries, service.Allows e) →
      let message := Control.requestMessage id operation name (some settings)
      let line := Control.requestLine codec id operation name (some settings)
      let request : Request := ⟨id, operation, service, sentSettings operation settings⟩
      Decodes parse line message →
      parseRequest parse line config = .ok request ∧
      ∀ (c : Controller) (allowedGid : ℤ) (connection : Connection) (rest : List UInt8),
        c.config = config → newline ∉ codec.dumps message → line.length ≤ maxMessageBytes →
        peerIsAuthorised connection.credentials allowedGid connection.readStatus = true →
        connection.received = .bytes (line ++ rest) →
        admitRequest c parse allowedGid connection = .ok request) ∧
    ∀ info state exitCode oom entries, Inspected info state exitCode oom entries →
      ∃ result, containerStatus info service = .ok result ∧
      ∀ id operation,
        let line := replyLine codec.dumps (accepted id result)
        codec.loads line = .ok (accepted id result).sortKeys →
        ∃ status, Control.readResponse codec line id operation name = .ok status ∧
          Reported status state (reportedCode state exitCode) oom
            (allowedVariables service entries) ∧
          ∀ settings, (∀ e ∈ settings.entries, service.Allows e) → Created settings entries →
            ∀ e ∈ settings.entries, status.settings.get e.1 = some e.2 := by
  constructor
  · intro id operation settings hid hop hsettings message line request hline
    have hparse : parseRequest parse line config = .ok request :=
      requests_agree hid hop hs hsettings hline
    refine ⟨hparse, ?_⟩
    rintro c allowedGid connection rest rfl hbody hfits hpeer hsent
    rw [← hparse]
    have hbytes : line ++ rest = codec.dumps message ++ newline :: rest := List.append_assoc ..
    exact admitRequest_line hpeer (hbytes ▸ hsent) hbody hfits
  · intro info state exitCode oom entries hinspected
    obtain ⟨result, hstatus, hread⟩ := replies_agree service hinspected
    refine ⟨result, hstatus, ?_⟩
    intro id operation line hline
    obtain ⟨status, hresponse, hreported⟩ := hread codec line id operation name hline
    refine ⟨status, hresponse, hreported, ?_⟩
    intro settings hsettings hcreated e he
    rw [hreported.settings]
    exact allowedVariables_get (loadConfig_service hload hs) hsettings hcreated he

/-! ## One exchange -/

/-- The settings of a start of Strata. -/
def strataSettings (model : String) : Dict String String := .ofList [("STRATA_MODEL", model)]

/-- The message of the start, and the text it is encoded to. -/
def startMessage (model : String) : Json :=
  Control.requestMessage "1" "start" "strata" (some (strataSettings model))

def startText (model : String) : String :=
  "\x7b\"version\":1,\"id\":\"1\",\"request\":\"start\",\"service\":\"strata\"," ++
    "\"settings\":\x7b\"STRATA_MODEL\":\"" ++ model ++ "\"\x7d\x7d"

/-- A decoder that knows two starts. -/
def parseStart (text : String) : Except LoadsError Json :=
  if text = startText "a=b" ++ "\n" then .ok (startMessage "a=b")
  else if text = startText "c" ++ "\n" then .ok (startMessage "c")
  else .error .json

/-- A connection of `root`, with one request. -/
def startConnection (model : String) : Connection where
  credentials := List.replicate 12 0
  readStatus _ := none
  received := .bytes (utf8 (startText model) ++ [newline])

/-- What `docker inspect` says of a container that was killed. -/
def exitedInfo : Json :=
  .obj [
    ("State", .obj [("Status", .str "exited"), ("OOMKilled", .bool true), ("ExitCode", .int 137)]),
    ("Config", .obj [("Env", .arr [.str "PATH=/bin", .str "STRATA_MODEL=a=b"])])]

/-- The reply with its status, and the text it is encoded to. -/
def exitedReply : Json :=
  accepted "1" (.obj (statusMembers "exited" (some 137) true .null (strataSettings "a=b")))

def exitedText : String :=
  "\x7b\"id\":\"1\",\"ok\":true,\"result\":\x7b\"exit_code\":137,\"health\":null," ++
    "\"oom_killed\":true,\"settings\":\x7b\"STRATA_MODEL\":\"a=b\"\x7d,\"state\":\"exited\"\x7d," ++
    "\"version\":1\x7d"

/-- A codec that knows the request and the reply. -/
def exchangeCodec : Codec where
  dumps document :=
    if (document.dict?.getD ∅).contains "request" then utf8 (startText "a=b") else utf8 exitedText
  loads line := if line = utf8 exitedText ++ [newline] then .ok exitedReply.sortKeys else .error .json

theorem inspected_exited :
    Inspected exitedInfo "exited" (some 137) true ["PATH=/bin", "STRATA_MODEL=a=b"] :=
  ⟨_, _, _, ∅, rfl, .inl rfl, .inl rfl, .inr ⟨rfl, rfl⟩, .inl rfl, rfl, .inl rfl, .inl rfl⟩

theorem replyLine_exited :
    replyLine exchangeCodec.dumps exitedReply = utf8 exitedText ++ [newline] := by
  have hdumps : exchangeCodec.dumps exitedReply.sortKeys = utf8 exitedText := by
    unfold exitedReply accepted
    rw [Json.sortKeys_obj]
    unfold exchangeCodec
    dsimp only
    rw [if_neg]
    rw [Json.dict?, Option.getD_some, Dict.contains, Json.get_sortMembers (by decide)]
    exact Bool.false_ne_true
  rw [replyLine, hdumps]

theorem loads_exited :
    exchangeCodec.loads (utf8 exitedText ++ [newline]) = .ok exitedReply.sortKeys := by
  unfold exchangeCodec
  dsimp only
  rw [if_pos rfl]

/-- Strata's variable may have the two values. -/
theorem strataSettings_allowed (hallowed : service.allowedEnv = ["STRATA_MODEL"]) {model : String}
    (hmodel : model ∈ ["a=b", "c"]) : ∀ e ∈ (strataSettings model).entries, service.Allows e := by
  have hpermitted : ∀ model ∈ ["a=b", "c"],
      model.length ≤ maxValueLength ∧ matchesEnvValue model = true := by
    decide +kernel
  intro e he
  obtain rfl := List.mem_singleton.1 he
  refine ⟨?_, hpermitted model hmodel⟩
  rw [hallowed]
  exact List.mem_singleton_self _

/-- A start of Strata with a value that has the separator in it, and the reply
    after the container was killed. -/
theorem agreement_strata : ∃ config service,
    loadConfig strataSections = .ok config ∧ config.services.get "strata" = some service ∧
    admitRequest ⟨config, Path.ofText "/var/lib"⟩ parseStart 100 (startConnection "a=b") =
      .ok ⟨"1", "start", service, strataSettings "a=b"⟩ ∧
    containerStatus exitedInfo service =
      .ok (.obj (statusMembers "exited" (some 137) true .null (strataSettings "a=b"))) ∧
    ∃ status, Control.readResponse exchangeCodec (utf8 exitedText ++ [newline]) "1" "start"
        "strata" = .ok status ∧
      status.state = "exited" ∧ status.exitCode = some 137 ∧ status.oomKilled = true ∧
      status.settings.get "STRATA_MODEL" = some "a=b" := by
  obtain ⟨config, service, hload, hs, hallowed⟩ := strata_configured
  obtain ⟨hrequests, hreplies⟩ := agreement hload hs exchangeCodec parseStart
  have hsettings : ∀ e ∈ (strataSettings "a=b").entries, service.Allows e :=
    strataSettings_allowed hallowed (List.mem_cons_self ..)
  have hstatus : containerStatus exitedInfo service =
      .ok (.obj (statusMembers "exited" (some 137) true .null (strataSettings "a=b"))) := by
    have hsame : allowedVariables service ["PATH=/bin", "STRATA_MODEL=a=b"] =
        strataSettings "a=b" := by
      unfold allowedVariables allowedVariable
      rw [hallowed]
      rfl
    rw [← hsame]
    rfl
  refine ⟨config, service, hload, hs, ?_, hstatus, ?_⟩
  · have hline : Control.requestLine exchangeCodec "1" "start" "strata"
        (some (strataSettings "a=b")) = utf8 (startText "a=b" ++ "\n") := by
      rw [utf8_append]
      rfl
    refine (hrequests "1" "start" (strataSettings "a=b") (by decide) (by decide) hsettings
      (hline ▸ decodes_utf8 (if_pos rfl))).2 _ 100 (startConnection "a=b") [] rfl ?_ ?_ (by decide)
      (by rw [List.append_nil]; rfl)
    · show newline ∉ utf8 (startText "a=b")
      decide +kernel
    · show (utf8 (startText "a=b") ++ [newline]).length ≤ maxMessageBytes
      decide +kernel
  · obtain ⟨result, hresult, hread⟩ :=
      hreplies exitedInfo "exited" (some 137) true _ inspected_exited
    obtain rfl := Except.ok.inj (hresult.symm.trans hstatus)
    have hread := hread "1" "start"
    rw [show accepted "1" _ = exitedReply from rfl, replyLine_exited] at hread
    obtain ⟨status, hresponse, hreported, hvalues⟩ := hread loads_exited
    have hcreated : Created (strataSettings "a=b") ["PATH=/bin", "STRATA_MODEL=a=b"] := by
      intro e he
      obtain rfl := List.mem_singleton.1 he
      exact ⟨["PATH=/bin"], [], rfl, fun _ h => absurd h List.not_mem_nil⟩
    exact ⟨status, hresponse, hreported.state, hreported.exitCode, hreported.oomKilled,
      hvalues (strataSettings "a=b") hsettings hcreated _ (List.mem_singleton_self _)⟩

end ModelBroker.Helper
