import Phragma.Go.Scan
import Phragma.Policy.Accepted

/-!
# Phragma.Policy.ValidateTelemetry

The validator's checks of the telemetry section: the event store, and the additional exports of
events to a file or a socket.

The name of an export is checked without the white space around it, and it is this trimmed name
that has to be new (`exports_quiet`).
-/

namespace Phragma.Policy

open Lib Go

/-! ### The event store

The address of the event store must not carry credentials, in whatever part of it. -/

/-- What the validator reads of a parsed URL. -/
structure ParsedURL where
  scheme : String
  host : String
  /-- Is there a user? -/
  user : Bool
  rawQuery : String
  deriving DecidableEq, Repr

/-- The part of `net/url` that the validator calls. -/
structure URLParser where
  /-- `url.Parse`. -/
  parse : String → Option ParsedURL
  /-- `url.QueryUnescape`. -/
  queryUnescape : String → Option String
  /-- A URL with control characters is refused. -/
  parse_clean : ∀ {s u}, parse s = some u → ∀ c ∈ s.toList, ' ' ≤ c

/-- `telemetryRawQueryParamNames`: the names of query parameters, decoded where they can be. -/
def telemetryRawQueryParamNames (urls : URLParser) (raw : String) : List String :=
  ((splitOn '&' raw.toList).flatMap (splitOn ';')).filterMap fun part =>
    if part = [] then none
    else
      let name := String.ofList (part.takeWhile fun c => c ≠ '=')
      some ((urls.queryUnescape name).getD name)

/-- `telemetrySensitiveQueryParam`: does a name read like that of a secret, without its
punctuation? -/
def telemetrySensitiveQueryParam (key : String) : Bool :=
  let normalized := String.ofList (key.toList.filterMap fun c =>
    if ('a' ≤ c ∧ c ≤ 'z') ∨ ('0' ≤ c ∧ c ≤ '9') then some c
    else if 'A' ≤ c ∧ c ≤ 'Z' then some (Char.ofNat (c.toNat + 32))
    else none)
  ["token", "accesstoken", "refreshtoken", "idtoken", "password", "passwd", "secret",
    "clientsecret", "key", "apikey", "apiaccesskey", "accesskey"].contains normalized ||
  ["token", "password", "secret", "apikey", "accesskey"].any fun sub =>
    decide (Contains normalized sub)

/-- The check of the event store's URL. -/
def checkClickhouseURL (urls : URLParser) (u : String) : List String :=
  if u = "" then []
  else
    match urls.parse u with
    | none => ["telemetry: clickhouse_url must be an http(s) URL"]
    | some parsed =>
        if (parsed.scheme ≠ "http" ∧ parsed.scheme ≠ "https") ∨ parsed.host = "" then
          ["telemetry: clickhouse_url must be an http(s) URL"]
        else
          errIf parsed.user ("telemetry: clickhouse_url must not include URL userinfo; " ++
            "store ClickHouse credentials outside policy") ++
          (telemetryRawQueryParamNames urls parsed.rawQuery).flatMap fun key =>
            errIf (telemetrySensitiveQueryParam key)
              ("telemetry: clickhouse_url must not include sensitive query parameter " ++
                quote key ++ "; store ClickHouse credentials outside policy")

/-! ### Exports

Only enabled exports are checked, and only they have to have different names. -/

/-- `validateTelemetryExportFileTarget`: the error, if there is one. -/
def validateTelemetryExportFileTarget (target : String) : Option String :=
  let target := trimSpace target
  let clean := cleanPath target
  let root := "/var/log/openngfw/exports"
  if target = "" then some "file target is required"
  else if containsAny target "\x00\r\n\t" || Contains target " " then
    some "file target must not contain whitespace or control characters"
  else if !hasPrefixList target.toList ['/'] then some "file target must be an absolute path"
  else if clean = root ∨ !hasPrefixList clean.toList (root ++ "/").toList then
    some ("file target must stay under " ++ root ++ "/")
  else if clean.toList.getLast? = some '/' then some "file target must name a file"
  else none

/-- `validateTelemetryExportSocketTarget`: the error, if there is one. -/
def validateTelemetryExportSocketTarget (target : String) : Option String :=
  let target := trimSpace target
  if target = "" then some "socket target is required"
  else if containsAny target "\x00\r\n\t /" then
    some "socket target must be host:port without whitespace, URL scheme, or path"
  else if Contains target "://" || Contains target "@" then
    some "socket target must be host:port without URL scheme or credentials"
  else
    match splitHostPort target with
    | none => some "socket target must be host:port"
    | some (host, port) =>
        if trimSpace host = "" then some "socket target host is required"
        else if (atoi port).all fun n => n < 1 || 65535 < n then
          some "socket target port must be 1-65535"
        else none

/-- The check of an export's name, by the names seen before. -/
def checkTelemetryExportName (seen : List String) (name : String) : List String × List String :=
  if name = "" then (["telemetry export: name is required"], seen)
  else if !nameRE name.toList then
    (["telemetry export " ++ quote name ++ ": name is not valid"], seen)
  else if seen.contains name then
    (["telemetry export " ++ quote name ++ ": duplicate export name"], seen)
  else ([], name :: seen)

/-- The check of an export's target, by its type. -/
def checkTelemetryExportTarget (name : String) (e : TelemetryExport) : List String :=
  let fail (err : Option String) : List String :=
    err.elim [] fun err => ["telemetry export " ++ quote name ++ ": " ++ err]
  match e.type with
  | .jsonFile => fail (validateTelemetryExportFileTarget e.target)
  | .jsonTcp | .jsonUdp => fail (validateTelemetryExportSocketTarget e.target)
  | .unspecified | .unrecognized _ => fail (some "type is required")

/-- `checkTelemetryExport`: one export, with the names of those before it. -/
def checkTelemetryExport (seen : List String) (e : TelemetryExport) : List String × List String :=
  if !e.enabled then ([], seen)
  else
    let name := trimSpace e.name
    let named := checkTelemetryExportName seen name
    (named.1 ++ checkTelemetryExportTarget name e, named.2)

/-- `checkTelemetry`: the event store and the exports, if telemetry is enabled. -/
def checkTelemetry (urls : URLParser) (tel : Telemetry) : List String :=
  if !tel.enabled then []
  else
    checkClickhouseURL urls tel.clickhouseUrl ++
    errIf (tel.database != "" && !nameRE tel.database.toList)
      ("telemetry: database " ++ quote tel.database ++ " is not a valid name") ++
    (collect checkTelemetryExport [] tel.exports).1

/-! ### Accepted sections -/

/-- The name of an accepted export is usable, and its type is one of the three. -/
structure UsableExport (e : TelemetryExport) : Prop where
  name : nameRE (trimSpace e.name).toList = true
  type : e.type = .jsonFile ∨ e.type = .jsonTcp ∨ e.type = .jsonUdp

theorem checkTelemetryExport_quiet {seen : List String} {e : TelemetryExport}
    (henabled : e.enabled = true) (h : (checkTelemetryExport seen e).1 = []) :
    UsableExport e ∧ trimSpace e.name ∉ seen ∧
      (checkTelemetryExport seen e).2 = trimSpace e.name :: seen := by
  unfold checkTelemetryExport checkTelemetryExportName at h ⊢
  simp only [henabled, Bool.not_true, Bool.false_eq_true, if_false, List.append_eq_nil_iff] at h ⊢
  obtain ⟨hname, htarget⟩ := h
  have htype : e.type = .jsonFile ∨ e.type = .jsonTcp ∨ e.type = .jsonUdp := by
    unfold checkTelemetryExportTarget at htarget
    cases ht : e.type <;> simp [ht] at htarget ⊢
  split_ifs at hname ⊢ with hempty hpattern hseen
  exact ⟨⟨by simpa using hpattern, htype⟩, by simpa using hseen, rfl⟩

/-- **The enabled exports of an accepted section** are usable, and their trimmed names differ. -/
theorem exports_quiet {exports : List TelemetryExport}
    (h : (collect checkTelemetryExport [] exports).1 = []) :
    (∀ e ∈ exports, e.enabled = true → UsableExport e) ∧
      ((exports.filter TelemetryExport.enabled).map fun e => trimSpace e.name).Nodup := by
  have hrun := collect_quiet_all checkTelemetryExport [] (fun pre seen =>
    seen = ((pre.filter TelemetryExport.enabled).map fun e => trimSpace e.name).reverse ∧
      (∀ e ∈ pre, e.enabled = true → UsableExport e) ∧
      ((pre.filter TelemetryExport.enabled).map fun e => trimSpace e.name).Nodup)
    ?_ ⟨rfl, fun _ h => absurd h List.not_mem_nil, List.nodup_nil⟩ h
  · exact hrun.2
  rintro pre seen e ⟨hseen, hall, hnodup⟩ hq
  cases henabled : e.enabled with
  | false =>
      have hstep : checkTelemetryExport seen e = ([], seen) := by
        unfold checkTelemetryExport
        simp [henabled]
      simp only [hstep, List.filter_append, List.filter_cons, henabled, Bool.false_eq_true, if_false,
        List.filter_nil, List.append_nil]
      refine ⟨hseen, fun a ha => ?_, hnodup⟩
      rcases List.mem_append.mp ha with ha | ha
      · exact hall a ha
      · rw [List.mem_singleton.mp ha, henabled]
        exact nofun
  | true =>
      obtain ⟨husable, hnew, hstep⟩ := checkTelemetryExport_quiet henabled hq
      simp only [hstep, List.filter_append, List.filter_cons, henabled, if_true, List.filter_nil,
        List.map_append, List.map_cons, List.map_nil, List.reverse_append, List.reverse_cons,
        List.reverse_nil, List.nil_append, List.singleton_append]
      refine ⟨by rw [hseen], fun a ha => ?_, nodup_snoc hnodup ?_⟩
      · rcases List.mem_append.mp ha with ha | ha
        · exact hall a ha
        · rw [List.mem_singleton.mp ha]
          exact fun _ => husable
      · rwa [hseen, List.mem_reverse] at hnew

end Phragma.Policy
