import Phragma.Compiler.Compiled
import Phragma.Renderers.Nftables
import Phragma.Renderers.Suricata
import Phragma.Renderers.Plain

/-!
# Phragma.Renderers.RenderAll

The render pipeline (`internal/renderers/render.go`): policy, IR, one artifact per
engine.

The nftables and Suricata artifacts are those of their renderers. The other engines'
renderers are a parameter: most results do not depend on what they write, only on which
artifacts exist. `OtherRenderers.standard` are the ones the node runs with. Eight engines
have an artifact for every policy; the proxy's exists only where the compiler produced a
proxy section.
-/

namespace Phragma.Renderers

open Lib Go Policy Compiler

/-- `Options`: deployment-level configuration. -/
structure Options where
  suricataRulesDir : String := ""
  logDir : String := ""
  vectorDataDir : String := ""
  inspectionWorkers : Int := 0
  deriving DecidableEq, Repr

/-- `Options.EvePath`: where Suricata writes its events. -/
def Options.EvePath (o : Options) : String := joinPath [o.logDir, "eve.json"]

/-- The paths handed to the Suricata renderer. -/
def Options.suricata (o : Options) : Suricata.Options := ⟨o.suricataRulesDir, o.logDir⟩

/-- Engine names, the keys of the artifact map. -/
def NftablesName : String := "nftables"
def RoutesName : String := "routes"
def SuricataName : String := "suricata"
def VectorName : String := "vector"
def FRRName : String := "frr"
def StrongswanName : String := "strongswan"
def WireguardName : String := "wireguard"
def NetdevName : String := "netdev"
def ProxyName : String := "proxy"

/-- The renderers of the engines besides nftables and Suricata. -/
structure OtherRenderers where
  routes : IR → Except String String
  vector : (evePath dataDir : String) → IR → Except String String
  frr : IR → Except String String
  strongswan : IR → Except String String
  wireguard : IR → Except String String
  netdev : IR → Except String String
  proxy : IR → Except String String

/-- Renderers of empty artifacts. -/
def OtherRenderers.empty : OtherRenderers where
  routes _ := .ok ""
  vector _ _ _ := .ok ""
  frr _ := .ok ""
  strongswan _ := .ok ""
  wireguard _ := .ok ""
  netdev _ := .ok ""
  proxy _ := .ok ""

/-- The renderers of `Phragma.Renderers.Plain`. The proxy plan is a JSON document of texts,
numbers and switches, which `json.MarshalIndent` encodes without an error; its text is a
parameter. -/
def OtherRenderers.standard (plan : IR → String) : OtherRenderers where
  routes ir := .ok (Iproute.Render ir)
  vector evePath dataDir ir := .ok (Vector.Render ir ⟨evePath, dataDir⟩)
  frr ir := .ok (Frr.Render ir)
  strongswan ir := .ok (Strongswan.Render ir)
  wireguard ir := .ok (Wireguard.Render ir)
  netdev ir := .ok (Netdev.Render ir)
  proxy ir := .ok (plan ir)

/-- The queue fan-out of inline inspection, from the node's configuration. -/
def resolveQueueCount (opts : Options) (ir : IR) : IR :=
  match ir.ids with
  | none => ir
  | some ids =>
      if ids.prevent then
        let workers := if opts.inspectionWorkers < 1 then 1 else opts.inspectionWorkers
        { ir with ids := some { ids with queueCount := uint16 workers.toNat } }
      else ir

/-- One step of the pipeline, with the engine's name in the error. -/
def step (what : String) (x : Except String String) : Except String String :=
  x.mapError fun e => "render " ++ what ++ ": " ++ e

/-- `RenderAll`, from the IR on. -/
def renderIR (R : OtherRenderers) (opts : Options) (ir : IR) :
    Except String (List (String × String)) := do
  let nft ← step "nftables" (Nftables.Render ir)
  let routes ← step "routes" (R.routes ir)
  let suri := Suricata.Render ir opts.suricata
  let vec ← step "vector" (R.vector opts.EvePath opts.vectorDataDir ir)
  let frr ← step "frr" (R.frr ir)
  let swan ← step "strongswan" (R.strongswan ir)
  let wg ← step "wireguard" (R.wireguard ir)
  let nd ← step "netdev" (R.netdev ir)
  let plan ← step "proxy plan" (R.proxy ir)
  pure ([(NftablesName, nft), (RoutesName, routes), (SuricataName, suri), (VectorName, vec),
    (FRRName, frr), (StrongswanName, swan), (WireguardName, wg), (NetdevName, nd)] ++
    (if ir.proxy.isSome then [(ProxyName, plan)] else []))

/-- `RenderAll`: the artifacts of a policy, one for each engine. -/
def RenderAll (R : OtherRenderers) (H : IdentityHash) (opts : Options) (p : Phragma.Policy) :
    Except String (List (String × String)) := do
  let ir ← Compile H p
  renderIR R opts (resolveQueueCount opts ir)

/-- The engines every policy has an artifact for. -/
def alwaysRendered : List String :=
  [NftablesName, RoutesName, SuricataName, VectorName, FRRName, StrongswanName, WireguardName,
    NetdevName]

/-- **What the pipeline returns**: the two modelled artifacts under their names, and the
names there are. -/
theorem renderIR_ok {R : OtherRenderers} {opts : Options} {ir : IR}
    {artifacts : List (String × String)} (h : renderIR R opts ir = .ok artifacts) :
    (∃ rs, Nftables.renderRuleset ir = .ok rs ∧ artifacts.lookup NftablesName = some rs.text) ∧
    artifacts.lookup SuricataName = some (Suricata.Render ir opts.suricata) ∧
    artifacts.map Prod.fst = alwaysRendered ++ (if ir.proxy.isSome then [ProxyName] else []) := by
  unfold renderIR at h
  obtain ⟨nft, hnft, h⟩ := bind_ok.mp h
  obtain ⟨routes, -, h⟩ := bind_ok.mp h
  obtain ⟨vec, -, h⟩ := bind_ok.mp h
  obtain ⟨frr, -, h⟩ := bind_ok.mp h
  obtain ⟨swan, -, h⟩ := bind_ok.mp h
  obtain ⟨wg, -, h⟩ := bind_ok.mp h
  obtain ⟨nd, -, h⟩ := bind_ok.mp h
  obtain ⟨plan, -, h⟩ := bind_ok.mp h
  cases h
  have hnft : Nftables.Render ir = .ok nft := mapError_ok.mp hnft
  unfold Nftables.Render at hnft
  refine ⟨?_, ?_, ?_⟩
  · cases hrs : Nftables.renderRuleset ir with
    | error e =>
        rw [hrs] at hnft
        cases hnft
    | ok rs =>
        rw [hrs] at hnft
        cases hnft
        exact ⟨rs, rfl, rfl⟩
  · rfl
  · cases ir.proxy <;> rfl

theorem resolveQueueCount_proxy (opts : Options) (ir : IR) :
    (resolveQueueCount opts ir).proxy = ir.proxy := by
  unfold resolveQueueCount
  cases ir.ids with
  | none => rfl
  | some ids => cases hp : ids.prevent <;> simp [hp]

/-- The engines a policy has an artifact for. -/
theorem RenderAll_names {R : OtherRenderers} {H : IdentityHash} {opts : Options}
    {p : Phragma.Policy} {artifacts : List (String × String)}
    (h : RenderAll R H opts p = .ok artifacts) :
    artifacts.map Prod.fst =
      alwaysRendered ++ (if (compileProxy p).isSome then [ProxyName] else []) := by
  unfold RenderAll at h
  obtain ⟨ir, hcompile, h⟩ := bind_ok.mp h
  obtain ⟨-, c, hC⟩ := Compile_ok hcompile
  obtain ⟨-, -, hnames⟩ := renderIR_ok h
  have hproxy : compileProxy (normalizeIdentities H p) = compileProxy p := rfl
  rw [hnames, resolveQueueCount_proxy, hC.proxy, hproxy]

end Phragma.Renderers
