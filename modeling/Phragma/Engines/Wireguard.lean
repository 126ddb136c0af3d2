import Phragma.Compiler.Complete
import Phragma.Engines.Lines

/-!
# Phragma.Engines.Wireguard

The WireGuard engine's reading of its artifact (`internal/engines/wireguard.go`), against what
the WireGuard renderer writes.

A line is a key and a value after a space, so a value is read back exactly when it holds no
line end and neither starts nor ends with white space (`Clean`). Names, paths and endpoints
are checked for that; a public key is only decoded, and base64 decoding skips line breaks. So
the artifact is read back exactly when no key is broken over lines: `wireguard_round_trip_iff`.
-/

namespace Phragma.Engines

open Lib Go Policy Compiler Renderers

/-! ### The parser

Each line is read on the interfaces so far: `interface` starts one, `peer` a peer of the last one,
and other keys belong to the last of either. -/

/-- `wgPeer`: a peer as it is read, in texts. -/
structure WgPeer where
  publicKey : String
  endpoint : String := ""
  allowedIPs : String := ""
  keepalive : String := ""
  deriving DecidableEq, Repr

/-- `wgIface`: an interface and its peers. -/
structure WgIface where
  name : String
  address : String := ""
  listenPort : String := ""
  privateKeyFile : String := ""
  peers : List WgPeer := []
  deriving DecidableEq, Repr

/-- The keys of the lines below an `interface` line. -/
def wireguardKeys : List String :=
  ["address", "listen-port", "private-key-file", "peer", "endpoint", "allowed-ips", "keepalive"]

/-- A line below a `peer` line. -/
def setPeerField (p : WgPeer) (key val : String) : WgPeer :=
  if key = "endpoint" then { p with endpoint := val }
  else if key = "allowed-ips" then { p with allowedIPs := val }
  else if key = "keepalive" then { p with keepalive := val }
  else p

/-- A line below an `interface` line. -/
def setIfaceField (cur : WgIface) (key val line : String) : Except String WgIface :=
  if key = "address" then .ok { cur with address := val }
  else if key = "listen-port" then .ok { cur with listenPort := val }
  else if key = "private-key-file" then .ok { cur with privateKeyFile := val }
  else if key = "peer" then .ok { cur with peers := cur.peers ++ [{ publicKey := val }] }
  else
    match cur.peers.getLast? with
    | none => .error ("wireguard artifact: " ++ quote line ++ " before any peer")
    | some p => .ok { cur with peers := cur.peers.dropLast ++ [setPeerField p key val] }

/-- The body of the loop of `parseWireguard`. The current interface is the last one read. -/
def parseWireguardLine (out : List WgIface) (line : String) : Except String (List WgIface) :=
  if hasPrefixList line.toList ['#'] then .ok out
  else
    let key := (cut ' ' line).1
    let val := trimSpace (cut ' ' line).2
    if key = "interface" then .ok (out ++ [{ name := val }])
    else if wireguardKeys.contains key then
      match out.getLast? with
      | none => .error ("wireguard artifact: " ++ quote line ++ " before any interface")
      | some cur => do
          let cur ← setIfaceField cur key val line
          pure (out.dropLast ++ [cur])
    else .error ("wireguard artifact: unknown directive " ++ quote line)

/-- `parseWireguard`: the interfaces of an artifact. -/
def parseWireguard (config : String) : Except String (List WgIface) :=
  (lines config).foldlM parseWireguardLine []

/-- A number of the IR as the engine holds it: zero is not written. -/
def optionalNumber (n : Nat) : String := if n = 0 then "" else decimal n

/-- A peer of the IR as the engine should read it. -/
def wgPeer (p : WireguardPeerIR) : WgPeer :=
  ⟨p.publicKey, p.endpoint, joinPrefixes p.allowedIPs, optionalNumber p.keepalive⟩

/-- An interface of the IR as the engine should read it. -/
def wgIface (w : WireguardIR) : WgIface :=
  ⟨w.name, w.address.string, optionalNumber w.listenPort, w.privateKeyFile, w.peers.map wgPeer⟩

/-- The WireGuard interfaces of the IR. -/
def wgIfaces (ir : IR) : List WgIface := (ir.vpn.elim [] VPNIR.wireguard).map wgIface

/-! ### Values

A line is trimmed before it is read, so a value keeps its inside and loses the white space at its
ends. -/

/-- What a value must be to survive on a line: no line end, and nothing to trim. -/
structure Clean (v : String) : Prop where
  unbroken : '\n' ∉ v.toList
  trimmed : trimSpace v = v

/-- A text without white space. -/
def Spaceless (s : String) : Prop := ∀ c ∈ s.toList, isSpace c = false

instance (s : String) : Decidable (Spaceless s) := inferInstanceAs (Decidable (∀ _ ∈ _, _))

theorem Spaceless.clean {s : String} (h : Spaceless s) : Clean s where
  unbroken := fun hmem => by cases h _ hmem
  trimmed := trimSpace_eq_self h

theorem Spaceless.append {a b : String} (ha : Spaceless a) (hb : Spaceless b) :
    Spaceless (a ++ b) := by
  intro c hc
  rw [String.toList_append, List.mem_append] at hc
  exact hc.elim (ha c) (hb c)

theorem Spaceless.join {sep : String} (hsep : Spaceless sep) :
    ∀ {parts : List String}, (∀ s ∈ parts, Spaceless s) → Spaceless (join parts sep) := by
  intro parts
  induction parts with
  | nil =>
      intro _ c hc
      cases hc
  | cons a parts ih =>
      intro h
      have ha := h a List.mem_cons_self
      have hrest := ih fun s hs => h s (List.mem_cons_of_mem _ hs)
      cases parts with
      | nil => exact ha
      | cons b parts =>
          unfold Go.join at hrest ⊢
          rw [String.intercalate_cons_cons]
          exact (ha.append hsep).append hrest

theorem spaceless_decimal (n : Nat) : Spaceless (decimal n) := (isWord_decimal n).2

theorem spaceless_hexDigits (n : Nat) : Spaceless (String.ofList (hexDigits n)) := by
  have hdigit : ∀ d < 16, isSpace (Nat.digitChar d) = false := by decide
  intro c hc
  rw [String.toList_ofList] at hc
  unfold hexDigits at hc
  induction n using Nat.strongRecOn with
  | ind n ih =>
      rw [Nat.toDigits_eq_if (by decide)] at hc
      split at hc
      · next hlt =>
          obtain rfl := List.mem_singleton.mp hc
          exact hdigit n hlt
      · rcases List.mem_append.mp hc with hc | hc
        · exact ih (n / 16) (by omega) hc
        · obtain rfl := List.mem_singleton.mp hc
          exact hdigit _ (Nat.mod_lt _ (by decide))

theorem spaceless_quadString (n : Nat) : Spaceless (quadString n) := by
  refine Spaceless.join (by decide) fun s hs => ?_
  simp only [List.mem_cons, List.not_mem_nil, or_false] at hs
  rcases hs with rfl | rfl | rfl | rfl <;> exact spaceless_decimal _

theorem spaceless_string6 (n : Nat) : Spaceless (string6 n) := by
  have hhex : ∀ l : List Nat,
      Spaceless (Go.join (l.map fun g => String.ofList (hexDigits g)) ":") := by
    intro l
    refine Spaceless.join (by decide) fun s hs => ?_
    obtain ⟨g, -, rfl⟩ := List.mem_map.mp hs
    exact spaceless_hexDigits g
  unfold string6
  simp only
  split
  · exact hhex _
  · exact ((hhex _).append (by decide)).append (hhex _)

/-- A prefix has no zone, so it is written without white space. -/
theorem spaceless_prefixText (p : Prefix) : Spaceless p.string := by
  have haddr : Spaceless p.addr.string := by
    have hzone := p.zone_eq
    cases haddr : p.addr with
    | v4 a => exact spaceless_quadString _
    | v6 a zone =>
        rw [haddr] at hzone
        have hzone : zone = "" := hzone
        unfold Addr.string
        simp only [hzone, if_true]
        split
        · exact Spaceless.append (by decide) (spaceless_quadString _)
        · exact spaceless_string6 _
  exact (haddr.append (by decide)).append (spaceless_decimal _)

theorem isWord_append {a w : String} (ha : Spaceless a) (hw : IsWord w) : IsWord (a ++ w) := by
  refine ⟨?_, ha.append hw.2⟩
  intro hnil
  have hlist := congrArg String.toList hnil
  rw [String.toList_append] at hlist
  exact hw.1 (String.toList_inj.mp (List.append_eq_nil_iff.mp hlist).2)

theorem isWord_prefixText (p : Prefix) : IsWord p.string := by
  refine ⟨?_, spaceless_prefixText p⟩
  intro hnil
  have hlist := congrArg String.toList hnil
  unfold Prefix.string at hlist
  rw [String.toList_append] at hlist
  exact (isWord_decimal _).1 (String.toList_inj.mp (List.append_eq_nil_iff.mp hlist).2)

theorem clean_joinPrefixes (ps : List Prefix) : Clean (joinPrefixes ps) := by
  refine (Spaceless.join (by decide) fun s hs => ?_).clean
  obtain ⟨p, -, rfl⟩ := List.mem_map.mp hs
  exact spaceless_prefixText p

/-! ### Lines -/

/-- White space around a text is trimmed, and nothing else. -/
theorem trimList_append {α : Type} {p : α → Bool} {a m b : List α} (ha : ∀ c ∈ a, p c = true)
    (hb : ∀ c ∈ b, p c = true) (hne : m ≠ []) (hhead : ∀ c, m.head? = some c → p c = false)
    (hlast : ∀ c, m.getLast? = some c → p c = false) : trimList p (a ++ (m ++ b)) = m := by
  have hstart : (m ++ b).dropWhile p = m ++ b := by
    refine dropWhile_eq_self fun c hc => hhead c ?_
    rwa [List.head?_append_of_ne_nil _ hne] at hc
  have hend : m.reverse.dropWhile p = m.reverse :=
    dropWhile_eq_self fun c hc => hlast c (by rwa [List.head?_reverse] at hc)
  unfold trimList
  rw [List.dropWhile_append_of_pos ha, hstart, List.reverse_append,
    List.dropWhile_append_of_pos fun c hc => hb c (List.mem_reverse.mp hc), hend,
    List.reverse_reverse]

/-- A text of the renderer that is read as one line with a key and a value. -/
def ReadsAs (text key val : String) : Prop :=
  ∃ l, lines text = [l] ∧ hasPrefixList l.toList ['#'] = false ∧ cut ' ' l = (key, val)

/-- **A key and a clean value are read back.** -/
theorem readsAs_directive (indent key : String) {val : String} (hindent : indent.toList.all (· == ' ') = true)
    (hkey : IsWord key) (hcomment : key.toList.head? ≠ some '#') (hval : Clean val) :
    ReadsAs (indent ++ (key ++ " " ++ val)) key val := by
  have hnotMem : ∀ {c}, isSpace c = true → c ∉ key.toList := fun hc hmem => by
    rw [hkey.2 _ hmem] at hc
    cases hc
  have hne : key.toList ≠ [] := by simpa using hkey.1
  have hspaces : ∀ c ∈ indent.toList, c = ' ' := by simpa using hindent
  have hblank : ∀ c ∈ indent.toList, isSpace c = true := fun c hc => by
    rw [hspaces c hc]
    decide
  have htext : (indent ++ (key ++ " " ++ val)).toList =
      indent.toList ++ (key.toList ++ ' ' :: val.toList) := by simp
  have hend : '\n' ∉ (indent ++ (key ++ " " ++ val)).toList := by
    rw [htext]
    intro h
    rcases List.mem_append.mp h with h | h
    · cases hspaces _ h
    · rcases List.mem_append.mp h with h | h
      · exact hnotMem (by decide) h
      · rcases List.mem_cons.mp h with h | h
        · cases h
        · exact hval.unbroken h
  have hkeyHead : ∀ c, key.toList.head? = some c → isSpace c = false := fun c hc =>
    hkey.2 c (List.mem_of_head? hc)
  -- what is left of the line after trimming starts with the key
  have hread : ∀ {m b : List Char}, indent.toList ++ (key.toList ++ ' ' :: val.toList) =
        indent.toList ++ (m ++ b) → m.head? = key.toList.head? → (∀ c ∈ b, isSpace c = true) →
      (∀ c, m.getLast? = some c → isSpace c = false) →
      lines (indent ++ (key ++ " " ++ val)) = [String.ofList m] ∧
        hasPrefixList m ['#'] = false := by
    intro m b hm hhead hb hlast
    have hmne : m ≠ [] := by
      rintro rfl
      cases hk : key.toList with
      | nil => exact hne hk
      | cons d ds => rw [hk] at hhead; cases hhead
    have htrim : trimSpace (indent ++ (key ++ " " ++ val)) = String.ofList m := by
      unfold trimSpace
      rw [htext, hm, trimList_append hblank hb hmne (fun c hc => hkeyHead c (hhead ▸ hc)) hlast]
    refine ⟨?_, ?_⟩
    · rw [lines_of_notMem hend ?_, htrim]
      rw [htrim]
      intro hnil
      exact hmne (by simpa using congrArg String.toList hnil)
    · cases m with
      | nil => exact absurd rfl hmne
      | cons d ds =>
          have hd : d ≠ '#' := by
            rintro rfl
            exact hcomment hhead.symm
          simp [hasPrefixList, List.isPrefixOf, Ne.symm hd]
  have hspace : ' ' ∉ key.toList := hnotMem (by decide)
  by_cases hempty : val = ""
  · subst hempty
    obtain ⟨hlines, hprefix⟩ := hread (m := key.toList) (b := [' ']) (by simp) rfl (by decide)
      fun c hc => hkey.2 c (List.mem_of_getLast? hc)
    refine ⟨_, hlines, by rwa [String.toList_ofList], ?_⟩
    simp [cut, cutRune_of_notMem hspace]
  · have hvne : val.toList ≠ [] := by simpa using hempty
    have hlast : ∀ c, val.toList.getLast? = some c → isSpace c = false := by
      rw [← hval.trimmed, trimSpace_toList]
      exact (ends_of_trimList _).2
    obtain ⟨hlines, hprefix⟩ := hread (m := key.toList ++ ' ' :: val.toList) (b := []) (by simp)
      (List.head?_append_of_ne_nil _ hne) (by simp) (fun c hc => hlast c (by
        rw [List.getLast?_append_of_ne_nil _ (List.cons_ne_nil _ _)] at hc
        rwa [List.getLast?_cons_of_ne_nil hvne] at hc))
    refine ⟨_, hlines, by rwa [String.toList_ofList], ?_⟩
    simp [cut, cutRune_append val.toList hspace]

/-! ### Blocks

The parser is a fold, so blocks of lines are read one after the other: `Reads` composes. -/

/-- The parser reads some texts of the renderer and goes from one list of interfaces to
another. -/
def Reads (texts : List String) (out out' : List WgIface) : Prop :=
  (texts.flatMap lines).foldlM parseWireguardLine out = .ok out'

theorem Reads.nil (out : List WgIface) : Reads [] out out := rfl

theorem Reads.append {texts texts' : List String} {a b c : List WgIface} (h : Reads texts a b)
    (h' : Reads texts' b c) : Reads (texts ++ texts') a c := by
  unfold Reads at h h' ⊢
  rw [List.flatMap_append, List.foldlM_append, h]
  exact h'

/-- One line, as the parser sees it. -/
theorem reads_line {text key val : String} (h : ReadsAs text key val) {out out' : List WgIface}
    (hstep : ∀ line, hasPrefixList line.toList ['#'] = false → cut ' ' line = (key, val) →
      parseWireguardLine out line = .ok out') : Reads [text] out out' := by
  obtain ⟨l, hlines, hcomment, hcut⟩ := h
  unfold Reads
  rw [List.flatMap_cons, List.flatMap_nil, List.append_nil, hlines, List.foldlM_cons,
    hstep l hcomment hcut]
  rfl

/-- An `interface` line opens a block. -/
theorem reads_interface {name : String} (h : Clean name) (out : List WgIface) :
    Reads [Wireguard.InterfaceMarker ++ name] out (out ++ [{ name := name }]) := by
  have hread : ReadsAs (Wireguard.InterfaceMarker ++ name) "interface" name := by
    have := readsAs_directive "" "interface" (by decide) (by decide) (by decide) h
    rwa [String.empty_append, show "interface" ++ " " = Wireguard.InterfaceMarker from rfl] at this
  refine reads_line hread fun line hcomment hcut => ?_
  unfold parseWireguardLine
  rw [hcomment, hcut, h.trimmed]
  rfl

/-- Any other line changes the last interface. -/
theorem reads_field (start indent key : String)
    (htext : start = indent ++ (key ++ " ") ∧ indent.toList.all (· == ' ') = true ∧
      key ∈ wireguardKeys) {val : String} (hval : Clean val) (cur : WgIface) {cur' : WgIface}
    (hset : ∀ line, setIfaceField cur key val line = .ok cur') (out : List WgIface) :
    Reads [start ++ val] (out ++ [cur]) (out ++ [cur']) := by
  obtain ⟨hstart, hindent, hkey⟩ := htext
  subst hstart
  rw [String.append_assoc]
  have hshape : ∀ key ∈ wireguardKeys,
      IsWord key ∧ key.toList.head? ≠ some '#' ∧ key ≠ "interface" := by decide
  obtain ⟨hword, hhead, hne⟩ := hshape key hkey
  refine reads_line (readsAs_directive indent key hindent hword hhead hval) fun line hcomment hcut => ?_
  unfold parseWireguardLine
  rw [hcomment, hcut, hval.trimmed]
  simp only [Bool.false_eq_true, if_false, hne, List.contains_iff_mem.mpr hkey, if_true,
    List.getLast?_append_of_ne_nil _ (List.cons_ne_nil _ _), List.getLast?_singleton,
    List.dropLast_concat, hset]
  rfl

/-- A line of the last peer. -/
theorem reads_peerField (start key : String)
    (htext : start = "  " ++ (key ++ " ") ∧
      (key = "endpoint" ∨ key = "allowed-ips" ∨ key = "keepalive"))
    {val : String} (hval : Clean val) (out : List WgIface) (cur : WgIface) (p : WgPeer) :
    Reads [start ++ val] (out ++ [{ cur with peers := cur.peers ++ [p] }])
      (out ++ [{ cur with peers := cur.peers ++ [setPeerField p key val] }]) := by
  obtain ⟨hstart, hkey⟩ := htext
  obtain ⟨h1, h2, h3, h4, hmem⟩ : key ≠ "address" ∧ key ≠ "listen-port" ∧
      key ≠ "private-key-file" ∧ key ≠ "peer" ∧ key ∈ wireguardKeys := by
    rcases hkey with rfl | rfl | rfl <;> decide
  refine reads_field start "  " key ⟨hstart, by decide, hmem⟩ hval _ (fun line => ?_) out
  simp [setIfaceField, h1, h2, h3, h4]

/-- **The lines of a peer** add it to the last interface. -/
theorem reads_peer {p : WireguardPeerIR} (hkey : Clean p.publicKey) (hendpoint : Clean p.endpoint)
    (out : List WgIface) (cur : WgIface) :
    Reads (Wireguard.peerLines p) (out ++ [cur])
      (out ++ [{ cur with peers := cur.peers ++ [wgPeer p] }]) := by
  have hpeer := reads_field "peer " "" "peer" (by decide) hkey cur (fun _ => rfl) out
  have hend : Reads (if p.endpoint = "" then [] else ["  endpoint " ++ p.endpoint])
      (out ++ [{ cur with peers := cur.peers ++ [{ publicKey := p.publicKey }] }])
      (out ++ [{ cur with
        peers := cur.peers ++ [{ publicKey := p.publicKey, endpoint := p.endpoint }] }]) := by
    split
    · next hempty =>
        rw [hempty]
        exact .nil _
    · exact reads_peerField _ "endpoint" (by decide) hendpoint out cur _
  have hips := reads_peerField "  allowed-ips " "allowed-ips" (by decide)
    (clean_joinPrefixes p.allowedIPs) out cur { publicKey := p.publicKey, endpoint := p.endpoint }
  have hkeep : Reads (if p.keepalive = 0 then [] else ["  keepalive " ++ decimal p.keepalive])
      (out ++ [{ cur with
        peers := cur.peers ++ [⟨p.publicKey, p.endpoint, joinPrefixes p.allowedIPs, ""⟩] }])
      (out ++ [{ cur with peers := cur.peers ++ [wgPeer p] }]) := by
    unfold wgPeer optionalNumber
    split
    · exact .nil _
    · exact reads_peerField _ "keepalive" (by decide) (spaceless_decimal _).clean out cur _
  exact ((hpeer.append hend).append hips).append hkeep

/-- The peers of an interface, one after the other. -/
theorem reads_peers (out : List WgIface) : ∀ {ps : List WireguardPeerIR} (cur : WgIface),
    (∀ p ∈ ps, Clean p.publicKey ∧ Clean p.endpoint) →
    Reads (ps.flatMap Wireguard.peerLines) (out ++ [cur])
      (out ++ [{ cur with peers := cur.peers ++ ps.map wgPeer }]) := by
  intro ps
  induction ps with
  | nil =>
      intro cur _
      rw [List.map_nil, List.append_nil]
      exact .nil _
  | cons p ps ih =>
      intro cur h
      obtain ⟨hkey, hendpoint⟩ := h p List.mem_cons_self
      have hrest := ih { cur with peers := cur.peers ++ [wgPeer p] } fun q hq =>
        h q (List.mem_cons_of_mem _ hq)
      rw [List.flatMap_cons]
      refine (reads_peer hkey hendpoint out cur).append ?_
      simpa using hrest

/-- What an interface of the IR must be for its block to be read back. -/
structure CleanIface (w : WireguardIR) : Prop where
  name : Clean w.name
  privateKeyFile : Clean w.privateKeyFile
  peers : ∀ p ∈ w.peers, Clean p.publicKey ∧ Clean p.endpoint

/-- **The block of an interface** is read as that interface. -/
theorem reads_block {w : WireguardIR} (h : CleanIface w) (out : List WgIface) :
    Reads (Wireguard.interfaceLines w) out (out ++ [wgIface w]) := by
  have hname := reads_interface h.name out
  have haddress := reads_field "address " "" "address" (by decide)
    (spaceless_prefixText w.address).clean { name := w.name } (fun _ => rfl) out
  have hport : Reads (if w.listenPort = 0 then [] else ["listen-port " ++ decimal w.listenPort])
      (out ++ [⟨w.name, w.address.string, "", "", []⟩])
      (out ++ [⟨w.name, w.address.string, optionalNumber w.listenPort, "", []⟩]) := by
    unfold optionalNumber
    split
    · exact .nil _
    · exact reads_field _ "" "listen-port" (by decide) (spaceless_decimal _).clean _
        (fun _ => rfl) out
  have hfile := reads_field "private-key-file " "" "private-key-file" (by decide)
    h.privateKeyFile ⟨w.name, w.address.string, optionalNumber w.listenPort, "", []⟩
    (fun _ => rfl) out
  have hpeers := reads_peers out ⟨w.name, w.address.string, optionalNumber w.listenPort,
    w.privateKeyFile, []⟩ h.peers
  exact (((hname.append haddress).append hport).append hfile).append hpeers

theorem reads_blocks : ∀ {ws : List WireguardIR} (out : List WgIface), (∀ w ∈ ws, CleanIface w) →
    Reads (ws.flatMap Wireguard.interfaceLines) out (out ++ ws.map wgIface) := by
  intro ws
  induction ws with
  | nil =>
      intro out _
      rw [List.map_nil, List.append_nil]
      exact .nil _
  | cons w ws ih =>
      intro out h
      have hrest := ih (out ++ [wgIface w]) fun v hv => h v (List.mem_cons_of_mem _ hv)
      rw [List.flatMap_cons]
      refine (reads_block (h w List.mem_cons_self) out).append ?_
      simpa using hrest

/-! ### What is read is clean

The other direction: whatever is read holds no line end and has nothing to trim. So a value that is
not clean is not read back. -/

/-- What the parser can read into an interface. -/
structure CleanRead (w : WgIface) : Prop where
  name : Clean w.name
  privateKeyFile : Clean w.privateKeyFile
  peers : ∀ p ∈ w.peers, Clean p.publicKey ∧ Clean p.endpoint

theorem clean_empty : Clean "" := ⟨by decide, by decide⟩

/-- The value of a line is clean. -/
theorem clean_value {line : String} (h : '\n' ∉ line.toList) :
    Clean (trimSpace (cut ' ' line).2) := by
  refine ⟨fun hmem => h ?_, trimSpace_trimSpace _⟩
  rw [trimSpace_toList] at hmem
  have hmem := mem_of_mem_trimList hmem
  unfold cut at hmem
  split at hmem
  · cases hmem
  · next hcut =>
      rw [String.toList_ofList] at hmem
      rw [(cutRune_eq_some hcut).1]
      exact List.mem_append_right _ (List.mem_cons_of_mem _ hmem)

theorem setPeerField_clean {p : WgPeer} {key val : String}
    (hp : Clean p.publicKey ∧ Clean p.endpoint) (hval : Clean val) :
    Clean (setPeerField p key val).publicKey ∧ Clean (setPeerField p key val).endpoint := by
  unfold setPeerField
  split_ifs
  · exact ⟨hp.1, hval⟩
  · exact hp
  · exact hp
  · exact hp

theorem setIfaceField_clean {cur cur' : WgIface} {key val line : String} (hcur : CleanRead cur)
    (hval : Clean val) (h : setIfaceField cur key val line = .ok cur') : CleanRead cur' := by
  unfold setIfaceField at h
  split_ifs at h
  · cases h
    exact ⟨hcur.name, hcur.privateKeyFile, hcur.peers⟩
  · cases h
    exact ⟨hcur.name, hcur.privateKeyFile, hcur.peers⟩
  · cases h
    exact ⟨hcur.name, hval, hcur.peers⟩
  · cases h
    refine ⟨hcur.name, hcur.privateKeyFile, fun p hp => ?_⟩
    rcases List.mem_append.mp hp with hp | hp
    · exact hcur.peers p hp
    · obtain rfl := List.mem_singleton.mp hp
      exact ⟨hval, clean_empty⟩
  · split at h
    · cases h
    · next last hlast =>
        cases h
        refine ⟨hcur.name, hcur.privateKeyFile, fun p hp => ?_⟩
        rcases List.mem_append.mp hp with hp | hp
        · exact hcur.peers p (List.mem_of_mem_dropLast hp)
        · obtain rfl := List.mem_singleton.mp hp
          exact setPeerField_clean (hcur.peers last (List.mem_of_getLast? hlast)) hval

/-- One line keeps the interfaces clean. -/
theorem parseWireguardLine_clean {out out' : List WgIface} {line : String}
    (hline : '\n' ∉ line.toList) (hout : ∀ w ∈ out, CleanRead w)
    (h : parseWireguardLine out line = .ok out') : ∀ w ∈ out', CleanRead w := by
  have hval := clean_value hline
  intro w hw
  unfold parseWireguardLine at h
  simp only at h
  split_ifs at h
  · cases h
    exact hout w hw
  · cases h
    rcases List.mem_append.mp hw with hw | hw
    · exact hout w hw
    · obtain rfl := List.mem_singleton.mp hw
      exact ⟨hval, clean_empty, nofun⟩
  · split at h
    · cases h
    · next cur hcur =>
        obtain ⟨cur', hset, h⟩ := bind_ok.mp h
        cases h
        rcases List.mem_append.mp hw with hw | hw
        · exact hout w (List.mem_of_mem_dropLast hw)
        · obtain rfl := List.mem_singleton.mp hw
          exact setIfaceField_clean (hout cur (List.mem_of_getLast? hcur)) hval hset

/-- **Whatever the parser returns is clean**, whoever wrote the artifact. -/
theorem parseWireguard_clean {config : String} {ifaces : List WgIface}
    (h : parseWireguard config = .ok ifaces) : ∀ w ∈ ifaces, CleanRead w := by
  have hrun : ∀ (ls : List String) (out : List WgIface), (∀ l ∈ ls, '\n' ∉ l.toList) →
      (∀ w ∈ out, CleanRead w) → ls.foldlM parseWireguardLine out = .ok ifaces →
      ∀ w ∈ ifaces, CleanRead w := by
    intro ls
    induction ls with
    | nil =>
        intro out _ hout h
        cases h
        exact hout
    | cons l ls ih =>
        intro out hls hout h
        rw [List.foldlM_cons] at h
        obtain ⟨out', hstep, h⟩ := bind_ok.mp h
        exact ih out' (fun l' hl' => hls l' (List.mem_cons_of_mem _ hl'))
          (parseWireguardLine_clean (hls l List.mem_cons_self) hout hstep) h
  exact hrun (lines config) [] (fun l hl => (mem_lines hl).2.2) nofun h

/-- **The round trip of the artifact.** -/
theorem parseWireguard_Render_iff {ir : IR} :
    parseWireguard (Wireguard.Render ir) = .ok (wgIfaces ir) ↔
      ∀ w ∈ ir.vpn.elim [] VPNIR.wireguard, CleanIface w := by
  constructor
  · intro h w hw
    have hclean := parseWireguard_clean h (wgIface w) (List.mem_map_of_mem hw)
    exact ⟨hclean.name, hclean.privateKeyFile, fun p hp =>
      hclean.peers (wgPeer p) (List.mem_map_of_mem hp)⟩
  · intro h
    have hheader : Reads [generatedBy] [] [] := by
      unfold Reads
      rw [List.flatMap_cons, List.flatMap_nil, List.append_nil, lines_generatedBy]
      decide
    have hread := hheader.append (reads_blocks [] h)
    unfold parseWireguard Wireguard.Render
    rw [lines_unlines]
    exact hread

/-! ### The policy

Most values are clean by what the validator checks. Keys are decoded, which does not see line
breaks. -/

/-- A public key that is not broken over lines and has no carriage return at its ends. -/
structure UnbrokenKey (key : String) : Prop where
  unbroken : '\n' ∉ key.toList
  first : key.toList.head? ≠ some '\r'
  last : key.toList.getLast? ≠ some '\r'

instance (key : String) : Decidable (UnbrokenKey key) :=
  decidable_of_iff ('\n' ∉ key.toList ∧ key.toList.head? ≠ some '\r' ∧
      key.toList.getLast? ≠ some '\r')
    ⟨fun h => ⟨h.1, h.2.1, h.2.2⟩, fun h => ⟨h.unbroken, h.first, h.last⟩⟩

theorem isSpace_of_base64Value {c : Char} {n : Nat} (h : base64Value c = some n) :
    isSpace c = false := by
  have hrange : ∀ {lo hi : Char}, lo ≤ c ∧ c ≤ hi → 0x21 ≤ lo.toNat → hi.toNat < 0x7f →
      isSpace c = false := by
    intro lo hi hc hlo hhi
    exact isSpace_of_visible (le_trans hlo hc.1) (lt_of_le_of_lt hc.2 hhi)
  unfold base64Value at h
  split_ifs at h with h1 h2 h3 h4 h5
  · exact hrange h1 (by decide) (by decide)
  · exact hrange h2 (by decide) (by decide)
  · exact hrange h3 (by decide) (by decide)
  · subst h4
    decide
  · subst h5
    decide

/-- A base64 text without line breaks has no white space. -/
theorem spaceless_of_base64Groups : ∀ {l : List Char} {bytes : List Nat},
    base64Groups l = some bytes → ∀ c ∈ l, isSpace c = false := by
  intro l
  fun_induction base64Groups l with
  | case1 => intro bytes _ c hc; cases hc
  | case2 a b =>
      intro bytes h
      obtain ⟨_, ha, h⟩ := Option.bind_eq_some_iff.mp h
      obtain ⟨_, hb, -⟩ := Option.bind_eq_some_iff.mp h
      simp only [List.forall_mem_cons]
      exact ⟨isSpace_of_base64Value ha, isSpace_of_base64Value hb, by decide, by decide, nofun⟩
  | case3 a b c =>
      intro bytes h
      obtain ⟨_, ha, h⟩ := Option.bind_eq_some_iff.mp h
      obtain ⟨_, hb, h⟩ := Option.bind_eq_some_iff.mp h
      obtain ⟨_, hc, -⟩ := Option.bind_eq_some_iff.mp h
      simp only [List.forall_mem_cons]
      exact ⟨isSpace_of_base64Value ha, isSpace_of_base64Value hb, isSpace_of_base64Value hc,
        by decide, nofun⟩
  | case4 a b c d rest _ _ ih =>
      intro bytes h
      obtain ⟨_, ha, h⟩ := Option.bind_eq_some_iff.mp h
      obtain ⟨_, hb, h⟩ := Option.bind_eq_some_iff.mp h
      obtain ⟨_, hc, h⟩ := Option.bind_eq_some_iff.mp h
      obtain ⟨_, hd, h⟩ := Option.bind_eq_some_iff.mp h
      obtain ⟨_, hrest, -⟩ := Option.bind_eq_some_iff.mp h
      simp only [List.forall_mem_cons]
      exact ⟨isSpace_of_base64Value ha, isSpace_of_base64Value hb, isSpace_of_base64Value hc,
        isSpace_of_base64Value hd, ih hrest⟩
  | case5 => intro bytes h; cases h

/-- The white space of an accepted key is line breaks. -/
theorem isSpace_of_base64Decode {key : String} {bytes : List Nat}
    (h : base64Decode key = some bytes) {c : Char} (hc : c ∈ key.toList) (hn : c ≠ '\n')
    (hr : c ≠ '\r') : isSpace c = false := by
  refine spaceless_of_base64Groups h c (List.mem_filter.mpr ⟨hc, ?_⟩)
  simp [isLineBreak, hn, hr]

/-- **Which accepted keys survive on a line.** -/
theorem clean_key_iff {key : String} {bytes : List Nat} (h : base64Decode key = some bytes) :
    Clean key ↔ UnbrokenKey key := by
  constructor
  · intro hclean
    have hends : (∀ c, key.toList.head? = some c → isSpace c = false) ∧
        ∀ c, key.toList.getLast? = some c → isSpace c = false := by
      rw [← hclean.trimmed, trimSpace_toList]
      exact ends_of_trimList _
    refine ⟨hclean.unbroken, fun hfirst => ?_, fun hlast => ?_⟩
    · cases hends.1 _ hfirst
    · cases hends.2 _ hlast
  · intro hkey
    refine ⟨hkey.unbroken, ?_⟩
    rw [← String.toList_inj, trimSpace_toList]
    refine trimList_eq_self_of_ends (fun c hc => ?_) fun c hc => ?_
    · have hmem := List.mem_of_head? hc
      exact isSpace_of_base64Decode h hmem (fun hn => hkey.unbroken (hn ▸ hmem))
        fun hr => hkey.first (hr ▸ hc)
    · have hmem := List.mem_of_getLast? hc
      exact isSpace_of_base64Decode h hmem (fun hn => hkey.unbroken (hn ▸ hmem))
        fun hr => hkey.last (hr ▸ hc)

theorem spaceless_of_hasSpaceOrControl {s : String} (h : hasSpaceOrControl s = false) :
    Spaceless s := by
  intro c hc
  have := List.any_eq_false.mp h c hc
  cases hs : isSpace c with
  | false => rfl
  | true => simp [hs] at this

theorem spaceless_of_checkManagedFilePath {ctx field value : String} {roots : List String}
    (h : checkManagedFilePath ctx field value roots = []) : Spaceless value := by
  unfold checkManagedFilePath at h
  split_ifs at h with _ hspace
  all_goals exact spaceless_of_hasSpaceOrControl (Bool.eq_false_iff.mpr hspace)

theorem spaceless_of_checkConfigToken {ctx field value : String} {needed : Bool}
    (h : checkConfigToken ctx field value needed = []) : Spaceless value := by
  unfold checkConfigToken at h
  split at h
  · next hempty =>
      rw [hempty]
      decide
  · cases hspace : hasSpaceOrControl value with
    | false => exact spaceless_of_hasSpaceOrControl hspace
    | true => simp [errIf, hspace] at h

/-- An accepted peer: its key decodes and its endpoint survives on a line. -/
theorem peer_of_check {ctx : String} {p : WireguardPeer} (h : checkWireguardPeer ctx p = []) :
    (∃ bytes, base64Decode p.publicKey = some bytes) ∧ Clean p.endpoint := by
  unfold checkWireguardPeer at h
  simp only [List.append_eq_nil_iff] at h
  obtain ⟨⟨⟨hkey, -⟩, -⟩, hend⟩ := h
  constructor
  · cases hdecode : base64Decode p.publicKey with
    | none => simp [errIf, hdecode] at hkey
    | some bytes => exact ⟨bytes, rfl⟩
  · split at hend
    · next hempty =>
        rw [hempty]
        exact clean_empty
    · split at hend
      · next htoken => exact (spaceless_of_checkConfigToken htoken).clean
      · next hne => exact absurd hend hne

/-- A compiled peer carries the key and the endpoint of the policy. -/
theorem compileWireguardPeer_fields {peer : WireguardPeer} {ir : WireguardPeerIR}
    (h : compileWireguardPeer peer = .ok ir) :
    ir.publicKey = peer.publicKey ∧ ir.endpoint = peer.endpoint := by
  obtain ⟨ips, -, h⟩ := bind_ok.mp h
  cases h
  exact ⟨rfl, rfl⟩

/-- **An accepted interface survives** exactly when its keys do. -/
theorem cleanIface_iff {w : WireguardInterface} {ir : WireguardIR}
    (hname : badInterfaceName w.name = false) (hcheck : checkWireguardInterface w = [])
    (h : compileWireguard w = .ok ir) :
    CleanIface ir ↔ ∀ peer ∈ w.peers, UnbrokenKey peer.publicKey := by
  obtain ⟨address, -, h⟩ := bind_ok.mp h
  obtain ⟨peers, hpeers, h⟩ := bind_ok.mp h
  cases h
  have hpeers := mapM_ok.mp hpeers
  unfold checkWireguardInterface at hcheck
  simp only [List.append_eq_nil_iff, List.flatMap_eq_nil_iff] at hcheck
  obtain ⟨⟨-, hfile⟩, hcheck⟩ := hcheck
  constructor
  · intro hclean peer hpeer
    obtain ⟨p, hp, hcompile⟩ := exists_of_forall₂_left hpeers hpeer
    obtain ⟨⟨bytes, hdecode⟩, -⟩ := peer_of_check (hcheck peer hpeer)
    have hkey := (hclean.peers p hp).1
    rw [(compileWireguardPeer_fields hcompile).1] at hkey
    exact (clean_key_iff hdecode).mp hkey
  · intro hkeys
    refine ⟨?_, (spaceless_of_checkManagedFilePath hfile).clean, fun p hp => ?_⟩
    · simp only [badInterfaceName, Bool.or_eq_false_iff] at hname
      exact (spaceless_of_hasSpaceOrControl hname.2).clean
    · obtain ⟨peer, hpeer, hcompile⟩ := exists_of_forall₂_right hpeers hp
      obtain ⟨⟨bytes, hdecode⟩, hend⟩ := peer_of_check (hcheck peer hpeer)
      obtain ⟨hkey, hendpoint⟩ := compileWireguardPeer_fields hcompile
      rw [hkey, hendpoint]
      exact ⟨(clean_key_iff hdecode).mpr (hkeys peer hpeer), hend⟩

/-- The interfaces of the IR are those of the policy. -/
theorem compileVPN_wireguard {vpn : Vpn} {ir : Option VPNIR} (h : compileVPN vpn = .ok ir) :
    List.Forall₂ (fun w w' => compileWireguard w = .ok w') vpn.wireguardInterfaces
      (ir.elim [] VPNIR.wireguard) := by
  unfold compileVPN at h
  split_ifs at h with hempty
  · cases h
    simp only [Bool.and_eq_true, List.isEmpty_iff] at hempty
    rw [hempty.2]
    exact .nil
  · obtain ⟨ipsec, -, h⟩ := bind_ok.mp h
    obtain ⟨wireguard, hwireguard, h⟩ := bind_ok.mp h
    cases h
    exact mapM_ok.mp hwireguard

/-- The artifact of a compiled policy is read back exactly when the policy's keys allow it. -/
theorem parseWireguard_compiled_iff {p : Phragma.Policy} (hA : Accepted p) {c : Compilation}
    {ir : IR} (hC : Compiled p c ir) :
    parseWireguard (Wireguard.Render ir) = .ok (wgIfaces ir) ↔
      ∀ w ∈ p.getVpn.wireguardInterfaces, ∀ peer ∈ w.peers, UnbrokenKey peer.publicKey := by
  have hvpn := compileVPN_wireguard hC.vpn
  rw [parseWireguard_Render_iff]
  constructor
  · intro h w hw
    obtain ⟨w', hw', hcompiled⟩ := exists_of_forall₂_left hvpn hw
    obtain ⟨hname, hcheck⟩ := hA.wireguard_ok w hw
    exact (cleanIface_iff hname hcheck hcompiled).mp (h w' hw')
  · intro h w' hw'
    obtain ⟨w, hw, hcompiled⟩ := exists_of_forall₂_right hvpn hw'
    obtain ⟨hname, hcheck⟩ := hA.wireguard_ok w hw
    exact (cleanIface_iff hname hcheck hcompiled).mpr (h w hw)

/-- **The WireGuard artifact is read back exactly when no key is broken.** For every accepted
policy: it compiles and the engine reads the rendered artifact as exactly the interfaces and
peers of the IR, if and only if it compiles at all and no public key holds a line feed or has
a carriage return at one of its ends. -/
theorem wireguard_round_trip_iff {H : IdentityHash} {p : Phragma.Policy}
    (haccepted : Validate (normalizeIdentities H p) = []) :
    (∃ ir, Compile H p = .ok ir ∧
        parseWireguard (Wireguard.Render ir) = .ok (wgIfaces ir)) ↔
      Compilable (normalizeIdentities H p) ∧
        ∀ w ∈ (normalizeIdentities H p).getVpn.wireguardInterfaces, ∀ peer ∈ w.peers,
          UnbrokenKey peer.publicKey :=
  compile_and_iff haccepted fun hC =>
    parseWireguard_compiled_iff (accepted_of_Validate haccepted) hC

/-- A peer with a public key. -/
def branchPeer (key : String) : WireguardPeer :=
  { name := "branch", publicKey := key, allowedIps := ["10.20.0.0/16"]
    endpoint := "198.51.100.7:51820", persistentKeepalive := 25 }

/-- One tunnel to such a peer. -/
def branchTunnel (key : String) : WireguardInterface :=
  { name := "wg0", address := "10.99.0.1/24", listenPort := 51820
    privateKeyFile := "/etc/phragma/keys/wg0.key", peers := [branchPeer key] }

/-- A node with a tunnel to a branch office. -/
def tunnelNode : Phragma.Policy where
  vpn := some { wireguardInterfaces :=
    [branchTunnel "xTIBA5rboUvnH4htodjb6e697QjLERt1NAB4mZqp8Dg="] }

theorem wireguard_round_trip_tunnelNode :
    Validate (normalizeIdentities .zero tunnelNode) = [] ∧
      (∃ ir, Compile .zero tunnelNode = .ok ir ∧
        parseWireguard (Wireguard.Render ir) = .ok (wgIfaces ir)) ∧
      Compilable (normalizeIdentities .zero tunnelNode) ∧
      ∀ w ∈ (normalizeIdentities .zero tunnelNode).getVpn.wireguardInterfaces, ∀ peer ∈ w.peers,
        UnbrokenKey peer.publicKey := by
  obtain ⟨haccepted, hok, hkeys⟩ : Validate (normalizeIdentities .zero tunnelNode) = [] ∧
      (Compile .zero tunnelNode).isOk = true ∧
      ∀ w ∈ (normalizeIdentities .zero tunnelNode).getVpn.wireguardInterfaces, ∀ peer ∈ w.peers,
        UnbrokenKey peer.publicKey := by
    decide
  have hcompilable := compilable_of_isOk haccepted hok
  exact ⟨haccepted, (wireguard_round_trip_iff haccepted).mpr ⟨hcompilable, hkeys⟩, hcompilable, hkeys⟩

/-- The same node with a line feed in the key. -/
def brokenTunnelNode : Phragma.Policy where
  vpn := some { wireguardInterfaces :=
    [branchTunnel "xTIBA5rboUvnH4htodjb6e\n697QjLERt1NAB4mZqp8Dg="] }

/-- **An accepted key can break its line**: base64 decoding skips the line feed. -/
theorem wireguard_refuses_brokenTunnelNode : ¬ ∀ (H : IdentityHash) (p : Phragma.Policy),
    Validate (normalizeIdentities H p) = [] → ∃ ir, Compile H p = .ok ir ∧
      parseWireguard (Wireguard.Render ir) = .ok (wgIfaces ir) := by
  intro hall
  obtain ⟨haccepted, w, hw, peer, hpeer, hbroken⟩ :
      Validate (normalizeIdentities .zero brokenTunnelNode) = [] ∧
        ∃ w ∈ (normalizeIdentities .zero brokenTunnelNode).getVpn.wireguardInterfaces,
          ∃ peer ∈ w.peers, '\n' ∈ peer.publicKey.toList := by
    decide
  have hread := hall .zero brokenTunnelNode haccepted
  rw [compile_and_iff haccepted fun hC =>
    parseWireguard_compiled_iff (accepted_of_Validate haccepted) hC] at hread
  exact (hread.2 w hw peer hpeer).unbroken hbroken

end Phragma.Engines
