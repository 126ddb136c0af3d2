import Phragma.Compiler.IR

/-!
# Phragma.Renderers.Suricata

The Suricata renderer (`internal/renderers/suricata/render.go`): from the inspection
section of the IR to `suricata.yaml`.

The file is produced line by line (`renderLines`); the text is the lines with their line
ends. Generated signatures and suppressions travel as comments between markers, from
where the engine writes them to files of their own.
-/

namespace Phragma.Renderers.Suricata

open Go Compiler

/-- `Options`: deployment paths that are not part of policy. -/
structure Options where
  rulesDir : String
  logDir : String
  deriving DecidableEq, Repr

def ModeMarker : String := "# openngfw-mode: "
def ModeDisabled : String := "disabled"
def ModeDetect : String := "detect"
def ModePrevent : String := "prevent"

def ThresholdFileName : String := "openngfw-threshold.config"
def thresholdBegin : String := "# openngfw-threshold-begin"
def thresholdEnd : String := "# openngfw-threshold-end"
def ClassificationFileName : String := "openngfw-classification.config"
def ReferenceFileName : String := "openngfw-reference.config"
def AppIDRuleFileName : String := "openngfw-appid.rules"
def appIDRulesBegin : String := "# openngfw-appid-rules-begin"
def appIDRulesEnd : String := "# openngfw-appid-rules-end"
def SecurityProfileRuleFileName : String := "openngfw-security-profiles.rules"
def securityProfileRulesBegin : String := "# openngfw-security-profile-rules-begin"
def securityProfileRulesEnd : String := "# openngfw-security-profile-rules-end"

/-! ### Values

Texts of the policy end up in rules and in metadata. Each is brought into one line; what else a text
may do to the file is `Phragma.Engines.SelfDescribing`. -/

/-- `oneLine`: a text in one line. -/
def oneLine (s : String) : String := join (fields s) " "

/-- `metadataValue`: one line, in which no marker can occur. -/
def metadataValue (s : String) : String :=
  replaceAll [
    ("# openngfw-threshold-line:", "openngfw-threshold-line:"),
    ("# openngfw-appid-rule:", "openngfw-appid-rule:"),
    (thresholdBegin, "openngfw-threshold-begin"),
    (thresholdEnd, "openngfw-threshold-end"),
    (appIDRulesBegin, "openngfw-appid-rules-begin"),
    (appIDRulesEnd, "openngfw-appid-rules-end"),
    (securityProfileRulesBegin, "openngfw-security-profile-rules-begin"),
    (securityProfileRulesEnd, "openngfw-security-profile-rules-end"),
    ("# openngfw-security-profile-rule:", "openngfw-security-profile-rule:")] (oneLine s)

/-- A bracketed set, or the bare item when there is one, or `any`. -/
def setText (items : List String) : String :=
  match items with
  | [] => "any"
  | [item] => item
  | items => "[" ++ join items "," ++ "]"

/-- `suricataAddressSet`: prefixes as Suricata reads them. -/
def suricataAddressSet (prefixes : List Prefix) : String := setText (prefixes.map Prefix.string)

/-- `suricataPortSet`: ports as Suricata reads them. -/
def suricataPortSet (ports : List PortRange) : String :=
  setText (ports.map fun port =>
    if port.start = port.stop then decimal port.start
    else decimal port.start ++ ":" ++ decimal port.stop)

/-! ### Generated blocks

Each block is a comment to Suricata. The engine cuts it out between its marks and writes it to a
file of its own. -/

/-- The two lines of one exception. -/
def exceptionLines (ex : IDSExceptionIR) : List String :=
  let field (label value : String) : String :=
    if value = "" then "" else " " ++ label ++ "=" ++ metadataValue value
  ["# ids_exception=" ++ ex.name ++ field "threat_id" ex.threatID ++
      field "description" ex.description ++ field "owner" ex.owner ++ field "ticket" ex.ticketID ++
      field "review_date" ex.reviewDate ++ field "expires_at" ex.expiresAt ++
      field "pcap_sha256" ex.pcapSHA256 ++ field "regression_ref" ex.regression,
    "# openngfw-threshold-line: suppress gen_id 1, sig_id " ++ toString ex.signatureID ++
      (if ex.track = "" then ""
      else ", track " ++ ex.track ++ ", ip " ++ (ex.address.map Prefix.string).getD "invalid Prefix")]

/-- `writeThresholdBlock`: the suppressions of exceptions. -/
def thresholdBlock (exceptions : List IDSExceptionIR) : List String :=
  ["# Generated IDS false-positive controls. The engine writes",
    "# this block to the threshold-file path before validation/apply.", thresholdBegin] ++
  exceptions.flatMap exceptionLines ++ [thresholdEnd, ""]

/-- `appIDRuleControls`: the controls to write, which are the drops where an IR has no controls. -/
def appIDRuleControls (ir : IR) : List AppIDControlIR :=
  if ir.appIDControls.isEmpty then
    ir.appIDDrops.map fun drop =>
      { ruleName := drop.ruleName, ruleID := "", application := drop.application
        engineSignal := drop.engineSignal, action := .deny, srcPrefixes := [], dstPrefixes := []
        service := ⟨.any, []⟩, sid := drop.sid }
  else ir.appIDControls

/-- `appIDControlHeader`: protocol and destination port. -/
def appIDControlHeader (control : AppIDControlIR) : String × String :=
  match control.service.protocol with
  | .tcp => ("tcp", suricataPortSet control.service.ports)
  | .udp => ("udp", suricataPortSet control.service.ports)
  | _ => ("ip", "any")

/-- `appIDControlRule`: a control as a rule. -/
def appIDControlRule (control : AppIDControlIR) : String :=
  let action := if control.action = .allow then "pass" else "drop"
  let actionLabel := if control.action = .allow then "allow" else "deny"
  let header := appIDControlHeader control
  let msg := "OpenNGFW App-ID " ++ actionLabel ++ " " ++ control.application ++ " via " ++
    control.engineSignal
  let metadata := "openngfw_rule " ++ control.ruleName ++ ", openngfw_application " ++
    control.application ++ ", openngfw_appid_action " ++ actionLabel ++
    (if control.ruleID = "" then "" else ", openngfw_rule_id " ++ control.ruleID)
  action ++ " " ++ header.1 ++ " " ++ suricataAddressSet control.srcPrefixes ++ " any -> " ++
    suricataAddressSet control.dstPrefixes ++ " " ++ header.2 ++ " (msg:" ++ quote (oneLine msg) ++
    "; app-layer-protocol:" ++ control.engineSignal ++ "; metadata:" ++ metadataValue metadata ++
    "; sid:" ++ decimal control.sid ++ "; rev:1;)"

/-- `writeAppIDRulesBlock`: the rules of all controls. -/
def appIDRulesBlock (controls : List AppIDControlIR) : List String :=
  ["# Generated App-ID allow/drop controls. The engine writes this",
    "# block to the managed App-ID rule file before validation/apply.", appIDRulesBegin] ++
  controls.map (fun control => "# openngfw-appid-rule: " ++ appIDControlRule control) ++
  [appIDRulesEnd, ""]

/-- `securityProfileRule`: a control of a security profile as a rule. -/
def securityProfileRule (rule : SecurityProfileRuleIR) : String :=
  let msg := "OpenNGFW security profile " ++ rule.profileName ++ " " ++ rule.control
  let metadata := "openngfw_rule " ++ rule.ruleName ++ ", openngfw_security_profile " ++
    rule.profileName ++ ", openngfw_control " ++ rule.control
  "alert ip any any -> any any (msg:" ++ quote (oneLine msg) ++ "; app-layer-protocol:" ++
    rule.protocol ++ "; metadata:" ++ metadataValue metadata ++ "; sid:" ++ decimal rule.sid ++
    "; rev:1;)"

/-- `writeSecurityProfileRulesBlock`: the rules of all profiles. -/
def securityProfileRulesBlock (rules : List SecurityProfileRuleIR) : List String :=
  ["# Generated security-profile inspection controls. The engine writes",
    "# this block to the managed security-profile rule file before validation/apply.",
    securityProfileRulesBegin] ++
  rules.map (fun rule => "# openngfw-security-profile-rule: " ++ securityProfileRule rule) ++
  [securityProfileRulesEnd, ""]

/-! ### The file

The first lines say how the engine is to run Suricata. It reads them back from the text. -/

/-- How packets reach Suricata: inline through NFQUEUE, or captured from the
interfaces. In inline mode a packet that matches no drop signature is accepted. -/
def captureLines (ids : IDsIR) : List String :=
  if ids.prevent then
    ["nfq:", "  mode: accept", "  fail-open: " ++ (if ids.failOpen then "yes" else "no"), ""]
  else
    ["af-packet:"] ++
    (ids.interfaces.zipIdx.flatMap fun (ifc, i) =>
      ["  - interface: " ++ ifc, "    cluster-id: " ++ decimal (90 + i),
        "    cluster-type: cluster_flow", "    defrag: yes"]) ++ [""]

/-- The rule files, generated ones last. -/
def ruleFileLines (ir : IR) (ids : IDsIR) : List String :=
  ["rule-files:"] ++ ids.ruleFiles.map (fun rf => "  - " ++ rf) ++
  (if (appIDRuleControls ir).isEmpty then [] else ["  - " ++ AppIDRuleFileName]) ++
  (if ir.securityProfileRules.isEmpty then [] else ["  - " ++ SecurityProfileRuleFileName]) ++ [""]

/-- The head of the file: the markers the engine supervisor reads. -/
def headLines (ids : IDsIR) : List String :=
  ["%YAML 1.1", "---", ModeMarker ++ (if ids.prevent then ModePrevent else ModeDetect)] ++
  (if ids.prevent then
    ["# openngfw-queue: " ++ decimal ids.queueNum,
      "# openngfw-queue-count: " ++ decimal (if ids.queueCount < 1 then 1 else ids.queueCount)]
    else []) ++
  ["# Generated by OpenNGFW controld. Do not edit; overwritten on every commit.", ""]

/-- The lines of `suricata.yaml` for an inspection section. -/
def idsLines (ir : IR) (ids : IDsIR) (opts : Options) : List String :=
  headLines ids ++
  ["runmode: workers", "mpm-algo: auto", "spm-algo: auto", "", "vars:", "  address-groups:",
    "    HOME_NET: \"[" ++ join (ids.homeNets.map Prefix.string) "," ++ "]\"",
    "    EXTERNAL_NET: \"!$HOME_NET\"", "", "default-log-dir: " ++ opts.logDir] ++
  (match ir.network with
    | some net => if 0 < net.maxMTU then
        ["default-packet-size: " ++ decimal ((net.maxMTU + 18) % 2 ^ 32)] else []
    | none => []) ++
  ["", "stats:", "  enabled: no", "", "outputs:", "  - eve-log:", "      enabled: yes",
    "      filetype: regular", "      filename: eve.json", "      types:", "        - alert",
    "        - http", "        - dns", "        - tls", "        - flow", ""] ++
  captureLines ids ++
  ["default-rule-path: " ++ opts.rulesDir,
    "classification-file: " ++ joinPath [opts.rulesDir, ClassificationFileName],
    "reference-config-file: " ++ joinPath [opts.rulesDir, ReferenceFileName]] ++
  ruleFileLines ir ids ++
  (if ids.exceptions.isEmpty then []
    else ["threshold-file: " ++ joinPath [opts.rulesDir, ThresholdFileName], ""] ++
      thresholdBlock ids.exceptions) ++
  (if (appIDRuleControls ir).isEmpty then [] else appIDRulesBlock (appIDRuleControls ir)) ++
  (if ir.securityProfileRules.isEmpty then []
    else securityProfileRulesBlock ir.securityProfileRules) ++
  ["app-layer:", "  protocols:", "    http:", "      enabled: yes", "    tls:",
    "      enabled: yes", "    dns:", "      tcp:", "        enabled: yes", "      udp:",
    "        enabled: yes", "    ssh:", "      enabled: yes", "", "logging:",
    "  default-log-level: notice", "  outputs:", "    - console:", "        enabled: yes"]

/-- The lines of the artifact. Without an inspection section it is the disabled marker. -/
def renderLines (ir : IR) (opts : Options) : List String :=
  match ir.ids with
  | none => [ModeMarker ++ ModeDisabled]
  | some ids => idsLines ir ids opts

/-- `Render`: the file of an IR. -/
def Render (ir : IR) (opts : Options) : String :=
  String.join ((renderLines ir opts).map fun l => l ++ "\n")

/-- In prevent mode the artifact tells Suricata to accept what matches no drop
signature. -/
theorem accept_mem_renderLines {ir : IR} {ids : IDsIR} (h : ir.ids = some ids)
    (hprevent : ids.prevent = true) (opts : Options) : "  mode: accept" ∈ renderLines ir opts := by
  have hcapture : "  mode: accept" ∈ captureLines ids := by simp [captureLines, hprevent]
  simp only [renderLines, h, idsLines, List.mem_append]
  tauto

end Phragma.Renderers.Suricata
