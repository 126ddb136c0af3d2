import Phragma.Go.Json
import Phragma.Go.Lines
import Phragma.Go.Text

/-!
# Phragma.Controld.ClientKey

Which client a request is charged to: the trusted proxies of `internal/proxytrust`, and
`httpClientKey` of `cmd/controld/ratelimit.go`.

A trusted peer's `X-Forwarded-For` is a chain of hops. What the client itself sent stands at the
left of it, and each proxy appends the address it was called from. The walk goes from the right
to the first hop that is not a trusted proxy. But all of the chain is parsed before the walk, and
a chain with an element that is no address is **ignored as a whole**.

So what the client sent cannot put an address of its choice in the place of the one the proxies
saw: the key is that of the chain without it, or that of the peer (`forwarded_key`).
-/

namespace Phragma.Controld

open Go

/-! ### `net.IP` and `net.IPNet`

An `IP` has 16 bytes, and an IPv4 address is one of them in its mapped form. A network has either 4
or 16, and is compared with an address by its own length. -/

/-- `net.IP`, in the form of sixteen bytes. -/
abbrev IP := BitVec 128

namespace IP

/-- `To4`: the IPv4 address of a mapped one. -/
def to4 (ip : IP) : Option (BitVec 32) :=
  if ip.toNat / 2 ^ 32 = 0xffff then some (BitVec.ofNat 32 (ip.toNat % 2 ^ 32)) else none

/-- `String`: an IPv4-mapped address is written as a dotted quad. -/
def string (ip : IP) : String :=
  match to4 ip with
  | some a => (Addr.v4 a).string
  | none => (Addr.v6 ip "").string

end IP

/-- `netip.Addr.As16`: an address in 16 bytes. -/
def as16 : Addr → IP
  | .v4 a => BitVec.ofNat 128 (0xffff * 2 ^ 32 + a.toNat)
  | .v6 a _ => a

/-- `net.ParseIP`: an address without a zone. -/
def parseIP (s : String) : Option IP :=
  match parseAddr s with
  | none => none
  | some addr => if addr.zone = "" then some (as16 addr) else none

/-- `net.IPNet`: the masked address, of four or of sixteen bytes, and the ones of the mask. -/
structure IPNet where
  ip : Addr
  ones : Nat
  deriving DecidableEq, Repr

namespace IPNet

/-- `networkNumberAndMask`: four bytes each, or sixteen. -/
def networkNumberAndMask (n : IPNet) : (BitVec 32 × BitVec 32) ⊕ (BitVec 128 × BitVec 128) :=
  match n.ip with
  | .v4 a => .inl (a, Prefix.mask 32 n.ones)
  | .v6 a _ =>
      match IP.to4 a with
      | some b => .inl (b, (Prefix.mask 128 n.ones).setWidth 32)
      | none => .inr (a, Prefix.mask 128 n.ones)

/-- `Contains`: is the address in the network? -/
def contains (n : IPNet) (ip : IP) : Bool :=
  match n.networkNumberAndMask, IP.to4 ip with
  | .inl (number, mask), some a => (number &&& mask) == (a &&& mask)
  | .inr (number, mask), none => (number &&& mask) == (ip &&& mask)
  | _, _ => false

/-- `String`: the network in CIDR form. -/
def string (n : IPNet) : String :=
  match n.ip with
  | .v4 a => (Addr.v4 a).string ++ "/" ++ decimal n.ones
  | .v6 a _ =>
      match IP.to4 a with
      | some b => (Addr.v4 b).string ++ "/" ++ decimal (n.ones - 96)
      | none => (Addr.v6 a "").string ++ "/" ++ decimal n.ones

end IPNet

/-- `net.ParseCIDR`, as far as the network goes. -/
def parseCIDR (s : String) : Option IPNet :=
  match cutRune '/' s.toList with
  | none => none
  | some (addr, bits) =>
      match parseAddr (String.ofList addr) with
      | none => none
      | some addr =>
          let ones := bits.foldl (fun n c => n * 10 + (c.toNat - '0'.toNat)) 0
          if addr.zone = "" ∧ bits ≠ [] ∧ bits.all Char.isDigit ∧ ones ≤ addr.bitLen then
            some
              { ip := match addr with
                  | .v4 a => .v4 (a &&& Prefix.mask 32 ones)
                  | .v6 a _ => .v6 (a &&& Prefix.mask 128 ones) ""
                ones }
          else none

/-! ### Trusted proxies

Networks are configured as texts. One that cannot be parsed is an error, and one that is there
already is passed over. -/

/-- `proxytrust.Set`: the networks, and their texts. -/
structure ProxySet where
  networks : List IPNet
  normalized : List String
  deriving DecidableEq, Repr

namespace ProxySet

/-- The loop of `New`. -/
def newLoop : ProxySet → List String → Except String ProxySet
  | set, [] => .ok set
  | set, item :: items =>
      let item := trimSpace item
      if item = "" then newLoop set items
      else
        match parseCIDR item with
        | none =>
            .error ("invalid trusted proxy CIDR " ++ quote item ++ ": invalid CIDR address: " ++
              item)
        | some network =>
            if network.string ∈ set.normalized then newLoop set items
            else
              newLoop ⟨set.networks ++ [network], set.normalized ++ [network.string]⟩ items

/-- `New`: the set of a list of texts. -/
def New (raw : List String) : Except String ProxySet := newLoop ⟨[], []⟩ raw

/-- `TrustsHost`: is the text an address of a trusted proxy? -/
def TrustsHost (set : ProxySet) (host : String) : Bool :=
  if set.networks.isEmpty then false
  else
    match parseIP host with
    | none => false
    | some ip => set.networks.any fun network => network.contains ip

end ProxySet

/-- `RemoteHost`: the host of a remote address, or the whole of it. -/
def RemoteHost (addr : String) : String :=
  match splitHostPort addr with
  | some (host, _) => if host ≠ "" then host else addr
  | none => addr

/-- `TrustsRemoteAddr`: does the request come from a trusted proxy? -/
def ProxySet.TrustsRemoteAddr (set : ProxySet) (remoteAddr : String) : Bool :=
  set.TrustsHost (RemoteHost remoteAddr)

/-- The address of one element of a chain, with or without a port. -/
def hop (part : String) : Option IP :=
  match parseIP part with
  | some ip => some ip
  | none =>
      match splitHostPort part with
      | some (host, _) => parseIP host
      | none => none

/-- The loop of `ForwardedClientIP` over the elements; `none` where it returns early. -/
def forwardedIPs : List String → Option (List IP)
  | [] => some []
  | part :: parts =>
      if trimSpace part = "" then forwardedIPs parts
      else
        match hop (trimSpace part) with
        | none => none
        | some ip => (forwardedIPs parts).map (ip :: ·)

/-- A header as the functions of `strings` and `net` see it. These look for ASCII characters and
white space only, and a stray byte is none of them, as U+FFFD is none. -/
def headerText (header : GoString) : List Char := header.map Rune.toChar

/-- `strings.Split(header, ",")`: the elements of a chain. -/
def elements (header : GoString) : List String :=
  (splitOn ',' (headerText header)).map String.ofList

/-- `ForwardedClientIP`: the rightmost address of a chain that is not a proxy's, the leftmost if all
are. A chain with an element that is no address gives nothing. -/
def ProxySet.ForwardedClientIP (set : ProxySet) (header : GoString) : String :=
  if header = [] then ""
  else
    match forwardedIPs (elements header) with
    | none => ""
    | some [] => ""
    | some (leftmost :: ips) =>
        match (leftmost :: ips).reverse.find? fun ip => !set.TrustsHost ip.string with
        | some ip => ip.string
        | none => leftmost.string

/-- `httpClientKey`, from `RemoteAddr` and the `X-Forwarded-For` of the request. -/
def httpClientKey (trustedProxies : ProxySet) (remoteAddr : String) (xForwardedFor : GoString) :
    String :=
  let forwardedFor := trustedProxies.ForwardedClientIP xForwardedFor
  if trustedProxies.TrustsRemoteAddr remoteAddr ∧ forwardedFor ≠ "" then forwardedFor
  else if RemoteHost remoteAddr ≠ "" then RemoteHost remoteAddr
  else remoteAddr

/-! ### What the client sent

Elements are read from the right, so what a proxy has appended comes before whatever the client
sent. If an untrusted address is met there, the client's part matters only where an element of it is
malformed. -/

/-- The element is blank or an address. -/
def WellFormedElement (part : String) : Prop := trimSpace part = "" ∨ (hop (trimSpace part)).isSome

instance (part : String) : Decidable (WellFormedElement part) := inferInstanceAs (Decidable (_ ∨ _))

/-- Every element of the header is blank or an address. -/
def WellFormedHeader (header : GoString) : Prop := ∀ part ∈ elements header, WellFormedElement part

instance (header : GoString) : Decidable (WellFormedHeader header) :=
  inferInstanceAs (Decidable (∀ _ ∈ _, _))

/-- Walking the header from the right, past blank elements and trusted proxies, meets a valid
address that is not trusted. -/
def MeetsUntrusted (set : ProxySet) (header : GoString) : Prop :=
  ∃ left part right ip, elements header = left ++ part :: right ∧ trimSpace part ≠ "" ∧
    hop (trimSpace part) = some ip ∧ set.TrustsHost ip.string = false ∧
    ∀ p ∈ right, trimSpace p = "" ∨ ∃ proxy, hop (trimSpace p) = some proxy ∧
      set.TrustsHost proxy.string = true

/-- The header a proxy sends on: what it was sent, and what it appends. -/
def forwarded (s h : GoString) : GoString := s ++ .char ',' :: h

theorem elements_forwarded (s h : GoString) :
    elements (forwarded s h) = elements s ++ elements h := by
  unfold elements forwarded headerText
  rw [List.map_append, List.map_cons, ← List.map_append, ← splitOn_append]
  rfl

theorem forwardedIPs_append (xs ys : List String) :
    forwardedIPs (xs ++ ys) = (forwardedIPs xs).bind fun a => (forwardedIPs ys).map (a ++ ·) := by
  induction xs with
  | nil => cases h : forwardedIPs ys <;> simp [forwardedIPs, h]
  | cons part parts ih =>
      rw [List.cons_append, forwardedIPs, forwardedIPs]
      split
      · exact ih
      · cases hop (trimSpace part) with
        | none => rfl
        | some ip =>
            dsimp only
            rw [ih]
            cases forwardedIPs parts with
            | none => rfl
            | some a => cases forwardedIPs ys <;> rfl

/-- The loop gives up exactly on the headers with a malformed element. -/
theorem forwardedIPs_isSome {parts : List String} :
    (forwardedIPs parts).isSome ↔ ∀ part ∈ parts, WellFormedElement part := by
  induction parts with
  | nil => simp [forwardedIPs]
  | cons part parts ih =>
      rw [List.forall_mem_cons, ← ih, forwardedIPs, WellFormedElement]
      by_cases hblank : trimSpace part = ""
      · simp [hblank]
      · cases hop (trimSpace part) <;> simp [hblank]

/-- An address of an element is among those the loop collects. -/
theorem mem_forwardedIPs {parts : List String} {ips : List IP} (h : forwardedIPs parts = some ips)
    {part : String} (hpart : part ∈ parts) (hne : trimSpace part ≠ "") {ip : IP}
    (hip : hop (trimSpace part) = some ip) : ip ∈ ips := by
  induction parts generalizing ips with
  | nil => cases hpart
  | cons p parts ih =>
      rw [forwardedIPs] at h
      rcases List.mem_cons.mp hpart with rfl | hpart
      · rw [if_neg hne, hip] at h
        obtain ⟨rest, -, rfl⟩ := Option.map_eq_some_iff.mp h
        exact List.mem_cons_self
      · split at h
        · exact ih h hpart
        · cases hp : hop (trimSpace p) with
          | none => rw [hp] at h; cases h
          | some q =>
              rw [hp] at h
              obtain ⟨rest, hrest, rfl⟩ := Option.map_eq_some_iff.mp h
              exact List.mem_cons_of_mem _ (ih hrest hpart)

/-- With an untrusted address among those collected, the rightmost such is the client. -/
theorem forwardedClientIP_of_untrusted {set : ProxySet} {header : GoString} {ips : List IP}
    (hips : forwardedIPs (elements header) = some ips) {ip : IP}
    (hfind : ips.reverse.find? (fun ip => !set.TrustsHost ip.string) = some ip) :
    set.ForwardedClientIP header = ip.string := by
  unfold ProxySet.ForwardedClientIP
  have hne : header ≠ [] := by
    rintro rfl
    have hnil : forwardedIPs (elements []) = some [] := by decide
    rw [hnil, Option.some.injEq] at hips
    subst hips
    cases hfind
  rw [if_neg hne, hips]
  cases ips with
  | nil => cases hfind
  | cons leftmost ips =>
      dsimp only
      rw [hfind]

theorem forwardedClientIP_of_none {set : ProxySet} {header : GoString}
    (h : forwardedIPs (elements header) = none) : set.ForwardedClientIP header = "" := by
  unfold ProxySet.ForwardedClientIP
  split
  · rfl
  · rw [h]

/-- **A well-formed s** changes nothing. -/
theorem forwardedClientIP_forwarded {set : ProxySet} {s h : GoString}
    (hmeets : MeetsUntrusted set h) (hs : WellFormedHeader s) :
    set.ForwardedClientIP (forwarded s h) = set.ForwardedClientIP h := by
  obtain ⟨a, ha⟩ := Option.isSome_iff_exists.mp (forwardedIPs_isSome.mpr hs)
  have happend : forwardedIPs (elements (forwarded s h)) =
      (forwardedIPs (elements h)).map (a ++ ·) := by
    rw [elements_forwarded, forwardedIPs_append, ha]
    rfl
  cases hips : forwardedIPs (elements h) with
  | none =>
      rw [hips] at happend
      rw [forwardedClientIP_of_none happend, forwardedClientIP_of_none hips]
  | some ips =>
      rw [hips] at happend
      obtain ⟨left, part, right, ip, helements, hne, hip, huntrusted, -⟩ := hmeets
      have hmem : ip ∈ ips :=
        mem_forwardedIPs hips (helements ▸ List.mem_append_right _ List.mem_cons_self) hne hip
      obtain ⟨client, hclient⟩ : ∃ client,
          ips.reverse.find? (fun ip => !set.TrustsHost ip.string) = some client := by
        refine Option.isSome_iff_exists.mp (List.find?_isSome.mpr ?_)
        exact ⟨ip, List.mem_reverse.mpr hmem, by rw [huntrusted]; rfl⟩
      -- The walk starts in the part the proxies appended, and ends there.
      have hwalk :
          (a ++ ips).reverse.find? (fun ip => !set.TrustsHost ip.string) = some client := by
        rw [List.reverse_append, List.find?_append, hclient]
        rfl
      rw [forwardedClientIP_of_untrusted happend hwalk, forwardedClientIP_of_untrusted hips hclient]

/-- **A malformed s** makes the chain one that is ignored. -/
theorem forwardedClientIP_malformed (set : ProxySet) {s : GoString} (h : GoString)
    (hs : ¬ WellFormedHeader s) :
    set.ForwardedClientIP (forwarded s h) = "" := by
  apply forwardedClientIP_of_none
  have hnone : forwardedIPs (elements s) = none := by
    rw [← Option.not_isSome_iff_eq_none]
    exact fun h => hs (forwardedIPs_isSome.mp h)
  rw [elements_forwarded, forwardedIPs_append, hnone]
  rfl

/-- **A client cannot choose its address.** Let `h` be a header in which the walk from the right
meets a valid untrusted address. Whatever well-formed elements a client puts before it, the
client's address and the key of a request from a trusted peer are those of `h` alone. Anything
else it puts there makes the chain ignored, and the key is that of the peer. -/
theorem forwarded_key (set : ProxySet) (h : GoString) (hmeets : MeetsUntrusted set h)
    (s : GoString) (remoteAddr : String) (hpeer : set.TrustsRemoteAddr remoteAddr = true) :
    (WellFormedHeader s →
        set.ForwardedClientIP (forwarded s h) = set.ForwardedClientIP h ∧
          httpClientKey set remoteAddr (forwarded s h) = httpClientKey set remoteAddr h) ∧
      (¬ WellFormedHeader s →
        set.ForwardedClientIP (forwarded s h) = "" ∧
          httpClientKey set remoteAddr (forwarded s h) = RemoteHost remoteAddr) := by
  refine ⟨fun hs => ?_, fun hs => ?_⟩
  · have heq := forwardedClientIP_forwarded hmeets hs
    refine ⟨heq, ?_⟩
    unfold httpClientKey
    rw [heq]
  · have hempty := forwardedClientIP_malformed set h hs
    refine ⟨hempty, ?_⟩
    -- A trusted peer has a host.
    have hhost : RemoteHost remoteAddr ≠ "" := by
      intro he
      unfold ProxySet.TrustsRemoteAddr ProxySet.TrustsHost at hpeer
      rw [he, show parseIP "" = none by decide] at hpeer
      split at hpeer <;> cases hpeer
    unfold httpClientKey
    rw [hempty]
    dsimp only
    rw [if_neg (fun h => h.2 rfl), if_pos hhost]

/-- The proxies of 10.0.0.0/24. -/
def sampleProxies : ProxySet := ⟨[⟨.v4 0x0a000000#32, 24⟩], ["10.0.0.0/24"]⟩

example : ProxySet.New [" 10.0.0.1/24 ", "10.0.0.0/24", ""] = .ok sampleProxies := by decide

/-- The walk over the client and one proxy meets the client. -/
theorem sample_meets :
    MeetsUntrusted sampleProxies (GoString.ofString "198.51.100.2, 10.0.0.10") := by
  refine ⟨[], "198.51.100.2", [" 10.0.0.10"], 0xffffc6336402#128, ?_, ?_, ?_, ?_, ?_⟩
  · decide
  · decide
  · decide
  · decide
  · intro p hp
    rw [List.mem_singleton.mp hp]
    exact .inr ⟨0xffff0a00000a#128, by decide, by decide⟩

/-- An address the client claims is not used. -/
theorem forwarded_key_spoofed :
    httpClientKey sampleProxies "10.0.0.10:443"
        (forwarded (GoString.ofString "203.0.113.7")
          (GoString.ofString "198.51.100.2, 10.0.0.10")) =
      httpClientKey sampleProxies "10.0.0.10:443"
        (GoString.ofString "198.51.100.2, 10.0.0.10") :=
  ((forwarded_key sampleProxies _ sample_meets (GoString.ofString "203.0.113.7") "10.0.0.10:443"
    (by decide)).1 (by decide)).2

/-- **A malformed element** the client sends takes the chain away, and with it the key. -/
theorem forwarded_key_malformed :
    MeetsUntrusted sampleProxies (GoString.ofString "198.51.100.2, 10.0.0.10") ∧
      sampleProxies.TrustsRemoteAddr "10.0.0.10:443" = true ∧
      sampleProxies.ForwardedClientIP (GoString.ofString "198.51.100.2, 10.0.0.10") =
        "198.51.100.2" ∧
      sampleProxies.ForwardedClientIP
        (forwarded (GoString.ofString "x") (GoString.ofString "198.51.100.2, 10.0.0.10")) = "" ∧
      httpClientKey sampleProxies "10.0.0.10:443"
          (GoString.ofString "198.51.100.2, 10.0.0.10") = "198.51.100.2" ∧
      httpClientKey sampleProxies "10.0.0.10:443"
          (forwarded (GoString.ofString "x") (GoString.ofString "198.51.100.2, 10.0.0.10")) =
        "10.0.0.10" :=
  ⟨sample_meets, by decide⟩

end Phragma.Controld
