import Phragma.Explain.ExplainFlow
import Phragma.Renderers.RenderAll

/-!
# Phragma.Renderers.Prevent

**Inline inspection and the forward chain.** In prevent mode the first line of the forward
chain hands every packet to Suricata. `forward_run_prevent` says what becomes of a packet:
with a listener the answer of the listener is the verdict of the chain, and the policy's
rules behind the line are never reached.

Two artifacts decide this together, the position of the queue statement in the ruleset and
the NFQUEUE mode in `suricata.yaml`, which tells Suricata to accept what no drop signature
matches. What Suricata does with that setting is an assumption (`Inspects`).
-/

namespace Phragma.Renderers

open Lib Go Policy Compiler Nft Explain

/-- The documented behaviour of Suricata on NFQUEUE: configured to accept, it answers
`NF_ACCEPT` for every packet that no drop rule matches, and refuses the others. -/
def Inspects (config : List String) (drops : Packet → Bool) (env : Env) : Prop :=
  "  mode: accept" ∈ config → env.listener = some fun pkt => !drops pkt

/-- **The fate of a packet in prevent mode.** -/
theorem forward_run_prevent {ir : IR} {rs : Nftables.Ruleset} (hR : Nftables.Rendered ir rs)
    {ids : IDsIR} (hids : ir.ids = some ids) (hprevent : ids.prevent = true) (env : Env)
    (pkt : Packet) :
    rs.forward.run env pkt =
      match env.listener with
      | some accepts => some (.verdict (if accepts pkt then .accept else .drop))
      | none =>
          if ids.failOpen then rs.forward.lines.tail.findSome? (Line.run env pkt)
          else some (.verdict .drop) := by
  obtain ⟨blocks, -, hlines⟩ := hR.forward
  have hfirst : ∃ rest, rs.forward.lines = Nftables.queueStatement ids :: rest := by
    rw [hlines, Nftables.forwardPreamble, hids]
    simp only [hprevent, if_true]
    exact ⟨_, rfl⟩
  obtain ⟨rest, hrest⟩ := hfirst
  rw [Chain.run, hrest, List.findSome?_cons, List.tail_cons]
  have hqueue : Line.run env pkt (Nftables.queueStatement ids) =
      match env.listener with
      | some accepts => some (.verdict (if accepts pkt then .accept else .drop))
      | none => if ids.failOpen then none else some (.verdict .drop) := by
    cases hl : env.listener with
    | some accepts =>
        simp [Line.run, Line.applies, Nftables.queueStatement, List.findSome?_cons, Stmt.effect, hl]
    | none =>
        cases hf : ids.failOpen <;>
          simp [Line.run, Line.applies, Nftables.queueStatement, List.findSome?_cons, Stmt.effect,
            hl, hf]
  rw [hqueue]
  cases env.listener with
  | some accepts => rfl
  | none => cases ids.failOpen <;> rfl

/-- The inspection section of a rendered policy in prevent mode. -/
theorem resolveQueueCount_prevent {H : IdentityHash} {p : Phragma.Policy} {ir : IR}
    (hcompile : Compile H p = .ok ir) (henabled : p.getIds.enabled = true)
    (hmode : p.getIds.mode = .prevent) (opts : Options) :
    ∃ ids, (resolveQueueCount opts ir).ids = some ids ∧ ids.prevent = true := by
  obtain ⟨-, c, hC⟩ := Compile_ok hcompile
  have hids : ∃ ids, ir.ids = some ids := by
    have h := hC.ids
    cases hi : ir.ids with
    | some ids => exact ⟨ids, rfl⟩
    | none =>
        rw [hi] at h
        exact absurd henabled (compileIDs_none h)
  obtain ⟨ids, hids⟩ := hids
  have hprevent : ids.prevent = true := by
    rw [(compileIDs_ok (hids ▸ hC.ids)).2.1]
    exact beq_iff_eq.mpr hmode
  unfold resolveQueueCount
  simp only [hids, hprevent, if_true]
  exact ⟨_, rfl, rfl⟩

/-- The verdicts that say a flow is not forwarded. -/
def Blocked (v : ExplainVerdict) : Prop := v = .denied ∨ v = .rejected ∨ v = .defaultDrop

/-- **In prevent mode every flow the policy blocks is forwarded.** For every policy in
prevent mode that renders: whatever flow the explainer reports as denied, rejected or
dropped by default, the rendered forward chain accepts its packets as long as Suricata,
run with the rendered configuration, finds nothing to drop in them. -/
theorem prevent_forwards_blocked {R : OtherRenderers} {H : IdentityHash} {opts : Options}
    {p : Phragma.Policy} {artifacts : List (String × String)}
    (hrender : RenderAll R H opts p = .ok artifacts) (henabled : p.getIds.enabled = true)
    (hmode : p.getIds.mode = .prevent) :
    ∃ rs config, artifacts.lookup NftablesName = some (Nftables.Ruleset.text rs) ∧
      artifacts.lookup SuricataName = some (String.join (config.map fun l => l ++ "\n")) ∧
      ∀ (req : ExplainFlowRequest) (version : Nat) (resp : ExplainFlowResponse),
        ExplainFlow H p req version = .ok resp → Blocked resp.verdict →
        ∀ (drops : Packet → Bool) (env : Env), Inspects config drops env →
        ∀ pkt, drops pkt = false → rs.forward.run env pkt = some (.verdict .accept) := by
  unfold RenderAll at hrender
  obtain ⟨ir, hcompile, hrender⟩ := bind_ok.mp hrender
  obtain ⟨⟨rs, hrs, hnft⟩, hsuri, -⟩ := renderIR_ok hrender
  obtain ⟨ids, hids, hprevent⟩ := resolveQueueCount_prevent hcompile henabled hmode opts
  refine ⟨rs, _, hnft, hsuri, ?_⟩
  intro req version resp _ _ drops env hinspects pkt hquiet
  have hlistener := hinspects (Suricata.accept_mem_renderLines hids hprevent opts.suricata)
  rw [forward_run_prevent (Nftables.rendered_of_renderRuleset hrs) hids hprevent, hlistener]
  simp [hquiet]

/-- An inline policy without a single rule: everything is dropped by default. -/
def inlineDefaultDrop : Phragma.Policy where
  zones := [{ name := "wan", interfaces := ["eth0"] }, { name := "lan", interfaces := ["eth1"] }]
  ids := some { enabled := true, mode := .prevent, failureBehavior := .failClosed }

/-- A connection from outside. -/
def intruder : Packet :=
  { iif := "eth0", oif := "eth1", header := .ip 0xc6336401#32 0x0a000005#32, l4 := .tcp
    dport := 22, ct := .new, syn := true }

def intruderRequest : ExplainFlowRequest :=
  { fromZone := "wan", toZone := "lan", srcIp := "198.51.100.1", destIp := "10.0.0.5"
    destPort := 22, protocol := .tcp }

/-- A Suricata that listens and has nothing to drop. -/
def quietSuricata : Env := ⟨fun _ => [], some fun _ => true⟩

/-- With this policy and a quiet Suricata the intruder is forwarded. -/
theorem prevent_forwards_intruder : ∃ artifacts rs,
    RenderAll .empty .zero {} inlineDefaultDrop = .ok artifacts ∧
    artifacts.lookup NftablesName = some (Nftables.Ruleset.text rs) ∧
    rs.forward.run quietSuricata intruder = some (.verdict .accept) := by
  have hall : ∃ artifacts resp, RenderAll .empty .zero {} inlineDefaultDrop = .ok artifacts ∧
      ExplainFlow .zero inlineDefaultDrop intruderRequest 1 = .ok resp ∧
      resp.verdict = .defaultDrop := ⟨_, _, rfl, rfl, rfl⟩
  obtain ⟨artifacts, resp, hrender, hresp, hverdict⟩ := hall
  obtain ⟨rs, config, hnft, -, hforward⟩ := prevent_forwards_blocked hrender rfl rfl
  exact ⟨artifacts, rs, hrender, hnft, hforward intruderRequest 1 resp hresp (.inr (.inr hverdict))
    (fun _ => false) quietSuricata (fun _ => rfl) intruder rfl⟩

/-- The explainer reports the intruder's flow as dropped by default, and the rendered chain
accepts it. -/
theorem prevent_intruder_explained_dropped : ∃ ir rs resp,
    Compile .zero inlineDefaultDrop = .ok ir ∧
    Nftables.renderRuleset (resolveQueueCount {} ir) = .ok rs ∧
    Inspects (Suricata.renderLines (resolveQueueCount {} ir) ⟨"", ""⟩) (fun _ => false)
      quietSuricata ∧
    ExplainFlow .zero inlineDefaultDrop intruderRequest 1 = .ok resp ∧
    Blocked resp.verdict ∧ rs.forward.run quietSuricata intruder = some (.verdict .accept) :=
  ⟨_, _, _, rfl, rfl, fun _ => rfl, rfl, .inr (.inr rfl), rfl⟩

end Phragma.Renderers
