import Phragma.Telemetry.Eve

/-!
# Phragma.Appid.Classify

**The application of a flow**: `ClassifyWithDefinitions` of `internal/appid/appid.go`.

An engine signal, where there is a usable one, decides by the definitions of policy and content in
order, then by the built-in taxonomy; without one the ports decide, in the same order. What stands
first wins, so definitions at the end of the list decide only what the ones before leave open
(`classify_append`).
-/

namespace Phragma.Appid

open Go Telemetry

/-! ### Tables -/

/-- `Definition`, with its source. -/
structure SourcedDefinition extends Definition where
  source : String := ""
  deriving DecidableEq, Repr

/-- `appDef`: an application. -/
structure AppDef where
  id : String
  name : String
  category : String
  deriving DecidableEq, Repr

/-- `signalMap`: the applications of engine signals. -/
def signalMap : List (String × AppDef) :=
  [("http", ⟨"web-browsing", "Web Browsing", "web"⟩),
    ("tls", ⟨"ssl", "SSL/TLS", "encrypted"⟩),
    ("ssl", ⟨"ssl", "SSL/TLS", "encrypted"⟩),
    ("quic", ⟨"quic", "QUIC", "encrypted"⟩),
    ("dns", ⟨"dns", "DNS", "network-service"⟩),
    ("ssh", ⟨"ssh", "SSH", "remote-access"⟩),
    ("ntp", ⟨"ntp", "NTP", "network-service"⟩),
    ("dhcp", ⟨"dhcp", "DHCP", "network-service"⟩),
    ("smtp", ⟨"smtp", "SMTP", "email"⟩),
    ("imap", ⟨"imap", "IMAP", "email"⟩),
    ("pop3", ⟨"pop3", "POP3", "email"⟩),
    ("ftp", ⟨"ftp", "FTP", "file-transfer"⟩),
    ("smb", ⟨"smb", "SMB", "file-sharing"⟩),
    ("rdp", ⟨"rdp", "RDP", "remote-access"⟩),
    ("bittorrent", ⟨"bittorrent", "BitTorrent", "file-sharing"⟩)]

/-- `portMap`: the applications of ports. -/
def portMap : List (String × AppDef) :=
  [("tcp/80", ⟨"web-browsing", "Web Browsing", "web"⟩),
    ("tcp/8080", ⟨"web-browsing", "Web Browsing", "web"⟩),
    ("tcp/443", ⟨"ssl", "SSL/TLS", "encrypted"⟩),
    ("udp/443", ⟨"quic", "QUIC", "encrypted"⟩),
    ("udp/53", ⟨"dns", "DNS", "network-service"⟩),
    ("tcp/53", ⟨"dns", "DNS", "network-service"⟩),
    ("tcp/22", ⟨"ssh", "SSH", "remote-access"⟩),
    ("udp/123", ⟨"ntp", "NTP", "network-service"⟩),
    ("udp/67", ⟨"dhcp", "DHCP", "network-service"⟩),
    ("udp/68", ⟨"dhcp", "DHCP", "network-service"⟩),
    ("tcp/25", ⟨"smtp", "SMTP", "email"⟩),
    ("tcp/587", ⟨"smtp", "SMTP", "email"⟩),
    ("tcp/465", ⟨"smtp", "SMTP", "email"⟩),
    ("tcp/143", ⟨"imap", "IMAP", "email"⟩),
    ("tcp/993", ⟨"imap", "IMAP", "email"⟩),
    ("tcp/110", ⟨"pop3", "POP3", "email"⟩),
    ("tcp/995", ⟨"pop3", "POP3", "email"⟩),
    ("tcp/21", ⟨"ftp", "FTP", "file-transfer"⟩),
    ("tcp/445", ⟨"smb", "SMB", "file-sharing"⟩),
    ("tcp/3389", ⟨"rdp", "RDP", "remote-access"⟩)]

/-! ### Classification

Every answer comes with its confidence and its evidence. The first definition that is about the
flow gives it, and the tables only where there is none. -/

/-- `definitionAppDef`: the application of a definition. -/
def definitionAppDef (d : Definition) : AppDef := ⟨d.id, d.name, d.category⟩

/-- `result`: an application as it is reported. -/
def result (app : AppDef) (confidence : UInt32) (evidence : List String) : AppResult :=
  ⟨app.id, app.name, app.category, confidence, evidence⟩

/-- A flow that no definition and no table knows. -/
def unknownResult (confidence : UInt32) (evidence : List String) : AppResult :=
  ⟨"unknown", "Unknown", "unknown", confidence, evidence⟩

/-- `definitionEvidencePrefix`, of the source as it is written. -/
def definitionEvidencePrefix (source : String) : String :=
  if trimSpace source = "" then "custom OpenNGFW" else trimSpace source

section Functions

variable (lib : Library)

/-- Is a normalized signal usable? -/
def usableSignal (signal : String) : Bool :=
  signal != "" && signal != "unknown" && signal != "failed"

/-- Does a definition list a normalized signal? -/
def listsSignal (signal : String) (d : SourcedDefinition) : Bool :=
  d.engineSignals.any fun candidate => normalize lib candidate == signal

/-- `customSignalMatch`: the first definition that lists a signal. -/
def customSignalMatch (definitions : List SourcedDefinition) (signal : String) :
    Option SourcedDefinition :=
  definitions.find? (listsSignal lib signal)

/-- Does a port hint cover a port? -/
def coversPort (proto : String) (destPort : Nat) (port : PortMatch) : Bool :=
  let stop := if port.end = 0 then port.start else port.end
  lib.toLower port.protocol == lib.toLower proto && port.start != 0 &&
    decide (port.start ≤ stop) && decide (port.start ≤ destPort) && decide (destPort ≤ stop)

/-- `customPortMatch`: the first definition that covers a port. -/
def customPortMatch (definitions : List SourcedDefinition) (proto : String) (destPort : Int) :
    Option SourcedDefinition :=
  if destPort ≤ 0 ∨ 65535 < destPort then none
  else definitions.find? fun d => d.ports.any (coversPort lib proto destPort.toNat)

/-- The evidence of a signal that a definition lists. -/
def signalEvidence (signal : String) (d : SourcedDefinition) : List String :=
  ["engine signal suricata.app_proto=" ++ signal,
    definitionEvidencePrefix d.source ++ " App-ID taxonomy match " ++ signal ++ " -> " ++ d.id]

/-- The classification by a signal of the built-in taxonomy. -/
def classifyBuiltin (signal portKey : String) (app : AppDef) : AppResult :=
  let evidence := ["engine signal suricata.app_proto=" ++ signal,
    "OpenNGFW taxonomy match " ++ signal ++ " -> " ++ app.id]
  match portMap.lookup portKey with
  | none => result app 90 evidence
  | some portDef =>
      if portDef.id = app.id then
        result app 95 (evidence ++ ["port heuristic " ++ portKey ++ " confirms " ++ app.id])
      else
        result app 80 (evidence ++ ["port heuristic " ++ portKey ++ " suggests " ++ portDef.id ++
          "; reduced confidence for engine signal " ++ signal ++ " -> " ++ app.id])

/-- The classification by a usable signal that no definition lists. -/
def classifySignal (signal portKey : String) : AppResult :=
  match signalMap.lookup signal with
  | some app => classifyBuiltin signal portKey app
  | none =>
      unknownResult 35
        (["engine signal suricata.app_proto=" ++ signal,
          "no OpenNGFW taxonomy match for engine signal"] ++
        match portMap.lookup portKey with
        | none => []
        | some portDef => ["port heuristic " ++ portKey ++ " suggests " ++ portDef.id ++
            " but engine signal is unmapped; retaining unknown App-ID"])

/-- The classification by ports that no definition covers. -/
def classifyPort (portKey : String) : AppResult :=
  match portMap.lookup portKey with
  | some portDef =>
      result portDef 60 ["no engine application signal",
        "port heuristic " ++ portKey ++ " -> " ++ portDef.id]
  | none =>
      unknownResult 10 ["no engine application signal",
        "no OpenNGFW port heuristic for " ++ portKey]

/-- The key of the port table. -/
def portKey (proto : String) (destPort : Int) : String :=
  lib.toLower proto ++ "/" ++ toString destPort

/-- `ClassifyWithDefinitions`: the application of a flow. -/
def ClassifyWithDefinitions (engineSignal proto : String) (destPort : Int)
    (definitions : List SourcedDefinition) : AppResult :=
  let signal := normalize lib engineSignal
  let key := portKey lib proto destPort
  if usableSignal signal then
    match customSignalMatch lib definitions signal with
    | some d => result (definitionAppDef d.toDefinition) 92 (signalEvidence signal d)
    | none => classifySignal signal key
  else
    match customPortMatch lib definitions proto destPort with
    | some d =>
        result (definitionAppDef d.toDefinition) 65 ["no engine application signal",
          definitionEvidencePrefix d.source ++ " port heuristic " ++ key ++ " -> " ++ d.id]
    | none => classifyPort key

/-- The definition that decides about a flow, if one does. -/
def decidingDefinition (engineSignal proto : String) (destPort : Int)
    (definitions : List SourcedDefinition) : Option SourcedDefinition :=
  if usableSignal (normalize lib engineSignal) then
    customSignalMatch lib definitions (normalize lib engineSignal)
  else customPortMatch lib definitions proto destPort

end Functions

/-! ### Which definition decides

A search in an appended list finds in the second part only what is not in the first. -/

variable {lib : Library} {engineSignal proto : String} {destPort : Int}

theorem decidingDefinition_append (defs more : List SourcedDefinition) :
    decidingDefinition lib engineSignal proto destPort (defs ++ more) =
      (decidingDefinition lib engineSignal proto destPort defs).or
        (decidingDefinition lib engineSignal proto destPort more) := by
  unfold decidingDefinition customSignalMatch customPortMatch
  split
  · exact List.find?_append
  · split
    · rfl
    · exact List.find?_append

/-- A classification depends on the definitions through the one that decides. -/
theorem classify_of_deciding {defs defs' : List SourcedDefinition}
    (h : decidingDefinition lib engineSignal proto destPort defs =
      decidingDefinition lib engineSignal proto destPort defs') :
    ClassifyWithDefinitions lib engineSignal proto destPort defs =
      ClassifyWithDefinitions lib engineSignal proto destPort defs' := by
  unfold decidingDefinition at h
  unfold ClassifyWithDefinitions
  split at h
  · next husable => simp only [husable, if_true, h]
  · next husable => simp only [if_neg husable, h]

/-- **Definitions at the end decide only what the ones before leave open.** -/
theorem classify_append {defs : List SourcedDefinition}
    (h : (decidingDefinition lib engineSignal proto destPort defs).isSome = true)
    (more : List SourcedDefinition) :
    ClassifyWithDefinitions lib engineSignal proto destPort (defs ++ more) =
      ClassifyWithDefinitions lib engineSignal proto destPort defs := by
  refine classify_of_deciding ?_
  obtain ⟨d, hd⟩ := Option.isSome_iff_exists.mp h
  rw [decidingDefinition_append, hd]
  rfl

end Phragma.Appid
