import Phragma.Lib.Resolve
import Phragma.Go.Netip

/-!
# Phragma.Nft.Ruleset

A fragment of the **nftables** rule language: its matches and statements, their text
form, and what the kernel does with a packet.

A rule (`Line`) is a list of matches followed by a list of statements. The matches are
tested from left to right; when all of them hold, the statements are executed until one
of them has an effect that ends the evaluation of the base chain. A chain is evaluated
by first match; when no rule ends it, the chain's policy decides, which is why
`Chain.run` returns an `Option`.

An NFQUEUE statement hands the packet to a userspace listener. A packet the listener
accepts leaves the chain accepted, one it refuses is dropped; without a listener the
packet is dropped, unless the statement carries the `bypass` flag, in which case
evaluation continues with the next rule.

Interface names are compared for equality, sets are read as lists of alternatives, and a
prefix covers an address that agrees with it under its mask. Statements that only change
the packet's metadata (counters, logging, MSS clamping, flow offload) have no effect on
the verdict. A translation to an address of another family than the packet's is skipped
by the kernel.
-/

namespace Phragma.Nft

open Lib Go

/-! ### Packets -/

/-- Layer-4 protocols. -/
inductive L4
  | tcp
  | udp
  | icmp
  | icmpv6
  | other (n : Nat)
  deriving DecidableEq, Repr

/-- Connection-tracking states. -/
inductive CtState
  | new
  | established
  | related
  | invalid
  | untracked
  deriving DecidableEq, Repr

/-- The network header: family, source and destination. -/
inductive Header
  | ip (src dst : BitVec 32)
  | ip6 (src dst : BitVec 128)
  deriving DecidableEq, Repr

/-- Address families as the rule language names them. -/
inductive Family
  | ip
  | ip6
  deriving DecidableEq, Repr

/-- A packet at a hook: the interfaces it came in by and goes out by, its headers and its
conntrack state. `dport` is meaningful for TCP and UDP. -/
structure Packet where
  iif : String
  oif : String
  header : Header
  l4 : L4
  dport : Nat
  ct : CtState
  syn : Bool
  deriving DecidableEq, Repr

namespace Packet

/-- The packet's address family. -/
def family (pkt : Packet) : Family :=
  match pkt.header with
  | .ip _ _ => .ip
  | .ip6 _ _ => .ip6

/-- Source address. -/
def src (pkt : Packet) : Addr :=
  match pkt.header with
  | .ip s _ => .v4 s
  | .ip6 s _ => .v6 s ""

/-- Destination address. -/
def dst (pkt : Packet) : Addr :=
  match pkt.header with
  | .ip _ d => .v4 d
  | .ip6 _ d => .v6 d ""

/-- The packet with another destination; an address of the other family leaves it as it
is, since no translation crosses families. -/
def withDst (pkt : Packet) (a : Addr) : Packet :=
  match pkt.header, a with
  | .ip s _, .v4 d => { pkt with header := .ip s d }
  | .ip6 s _, .v6 d _ => { pkt with header := .ip6 s d }
  | _, _ => pkt

/-- Each ICMP is carried by its own family. -/
def Proper (pkt : Packet) : Prop :=
  (pkt.family = .ip → pkt.l4 ≠ .icmpv6) ∧ (pkt.family = .ip6 → pkt.l4 ≠ .icmp)

end Packet

/-! ### Rules -/

/-- Source or destination. -/
inductive Side
  | saddr
  | daddr
  deriving DecidableEq, Repr

/-- The right-hand side of an address match. -/
inductive AddrSet
  | prefixes (ps : List Prefix)
  | host (a : Addr)
  | named (name : String)
  deriving DecidableEq, Repr

/-- Matches. -/
inductive Match
  | iifname (names : List String)
  | oifname (names : List String)
  | addr (fam : Family) (side : Side) (set : AddrSet)
  | l4proto (protos : List L4)
  | dport (proto : L4) (ranges : List (Nat × Nat))
  | ctState (states : List CtState)
  | tcpFlagsSyn
  deriving DecidableEq, Repr

/-- Terminal verdicts. -/
inductive Verdict
  | accept
  | drop
  | reject
  deriving DecidableEq, Repr

/-- An NFQUEUE target: the queue range, whether flows are fanned out over it, and whether
packets continue when nobody listens. -/
structure Queue where
  first : Nat
  last : Nat
  fanout : Bool
  bypass : Bool
  deriving DecidableEq, Repr

/-- Statements. -/
inductive Stmt
  | counter
  | log (pfx : String)
  | comment (text : String)
  | verdict (v : Verdict)
  | queue (q : Queue)
  | clampMss
  | flowAdd (table : String)
  | dnat (target : Addr) (port : Nat)
  | snat (target : Addr)
  | masquerade
  deriving DecidableEq, Repr

/-- A rule. -/
structure Line where
  conds : List Match
  stmts : List Stmt
  deriving DecidableEq, Repr

/-- A base chain: its declaration and its rules. -/
structure Chain where
  name : String
  decl : String
  lines : List Line
  deriving DecidableEq, Repr

/-! ### Text -/

/-- A set expression: the bare element when there is one, braces otherwise. -/
def setText (items : List String) : String :=
  match items with
  | [item] => item
  | items => "\x7b " ++ join items ", " ++ " \x7d"

def L4.text : L4 → String
  | .tcp => "tcp"
  | .udp => "udp"
  | .icmp => "icmp"
  | .icmpv6 => "ipv6-icmp"
  | .other n => decimal n

def CtState.text : CtState → String
  | .new => "new"
  | .established => "established"
  | .related => "related"
  | .invalid => "invalid"
  | .untracked => "untracked"

def Family.text : Family → String
  | .ip => "ip"
  | .ip6 => "ip6"

def Side.text : Side → String
  | .saddr => "saddr"
  | .daddr => "daddr"

/-- A prefix, as a bare address when it covers one host. -/
def prefixText (p : Prefix) : String := if p.isSingleIP then p.addr.string else p.string

def AddrSet.text : AddrSet → String
  | .prefixes ps => setText (ps.map prefixText)
  | .host a => a.string
  | .named name => "@" ++ name

/-- A port range, as a bare port when it is one. -/
def rangeText (r : Nat × Nat) : String :=
  if r.1 = r.2 then decimal r.1 else decimal r.1 ++ "-" ++ decimal r.2

def Match.text : Match → String
  | .iifname names => "iifname " ++ setText (names.map quote)
  | .oifname names => "oifname " ++ setText (names.map quote)
  | .addr fam side set => fam.text ++ " " ++ side.text ++ " " ++ set.text
  | .l4proto protos => "meta l4proto " ++ setText (protos.map L4.text)
  | .dport proto ranges => proto.text ++ " dport " ++ setText (ranges.map rangeText)
  | .ctState states => "ct state " ++ join (states.map CtState.text) ","
  | .tcpFlagsSyn => "tcp flags syn"

def Verdict.text : Verdict → String
  | .accept => "accept"
  | .drop => "drop"
  | .reject => "reject"

def Queue.text (q : Queue) : String :=
  let flags := (if q.bypass then ["bypass"] else []) ++ (if q.fanout then ["fanout"] else [])
  let target := if q.fanout then decimal q.first ++ "-" ++ decimal q.last else decimal q.first
  if flags.isEmpty then "queue to " ++ target
  else "queue flags " ++ join flags "," ++ " to " ++ target

/-- A translation target; IPv6 addresses are bracketed where a port may follow. -/
def dnatText (target : Addr) (port : Nat) : String :=
  let text := if target.is6 then "[" ++ target.string ++ "]" else target.string
  "dnat " ++ (if target.is6 then "ip6" else "ip") ++ " to " ++
    (if port = 0 then text else text ++ ":" ++ decimal port)

def Stmt.text : Stmt → String
  | .counter => "counter"
  | .log pfx => "log prefix " ++ quote pfx
  | .comment text => "comment " ++ quote text
  | .verdict v => v.text
  | .queue q => q.text
  | .clampMss => "tcp option maxseg size set rt mtu"
  | .flowAdd table => "flow add @" ++ table
  | .dnat target port => dnatText target port
  | .snat target => "snat " ++ (if target.is6 then "ip6" else "ip") ++ " to " ++ target.string
  | .masquerade => "masquerade"

def Line.text (l : Line) : String :=
  join (l.conds.map Match.text ++ l.stmts.map Stmt.text) " "

def Chain.text (c : Chain) : String :=
  "\tchain " ++ c.name ++ " \x7b\n\t\t" ++ c.decl ++ "\n" ++
    String.join (c.lines.map fun l => "\t\t" ++ l.text ++ "\n") ++ "\t\x7d\n"

/-! ### Evaluation -/

/-- What the kernel consults besides the rules: the contents of named sets, and the
userspace program bound to the queues, if any, with its answer to each packet. -/
structure Env where
  sets : String → List Prefix
  listener : Option (Packet → Bool)

/-- An environment without set contents and without a listener. -/
def Env.empty : Env := ⟨fun _ => [], none⟩

/-- A prefix covers an address that agrees with it under its mask. -/
def covers (p : Prefix) (a : Addr) : Bool :=
  match p.addr, a with
  | .v4 x, .v4 y => Prefix.maskedEq p.bits y x
  | .v6 x _, .v6 y _ => Prefix.maskedEq p.bits y x
  | _, _ => false

/-- Is an address in a set? -/
def AddrSet.has (env : Env) : AddrSet → Addr → Bool
  | .prefixes ps, a => ps.any fun p => covers p a
  | .host x, a => decide (x = a)
  | .named name, a => (env.sets name).any fun p => covers p a

/-- The address a match looks at. -/
def Side.of : Side → Packet → Addr
  | .saddr => Packet.src
  | .daddr => Packet.dst

/-- Does a match hold of a packet? -/
def Match.holds (env : Env) (pkt : Packet) : Match → Bool
  | .iifname names => names.contains pkt.iif
  | .oifname names => names.contains pkt.oif
  | .addr fam side set => decide (pkt.family = fam) && set.has env (side.of pkt)
  | .l4proto protos => protos.contains pkt.l4
  | .dport proto ranges =>
      decide (pkt.l4 = proto) && ranges.any fun r => decide (r.1 ≤ pkt.dport ∧ pkt.dport ≤ r.2)
  | .ctState states => states.contains pkt.ct
  | .tcpFlagsSyn => decide (pkt.l4 = .tcp) && pkt.syn

/-- What ends the evaluation of a chain. -/
inductive Effect
  | verdict (v : Verdict)
  | dnat (target : Addr) (port : Nat)
  | snat (target : Addr)
  | masquerade
  deriving DecidableEq, Repr

/-- The effect of one statement, if it ends the evaluation. -/
def Stmt.effect (env : Env) (pkt : Packet) : Stmt → Option Effect
  | .verdict v => some (.verdict v)
  | .queue q =>
      match env.listener with
      | some accepts => some (.verdict (if accepts pkt then .accept else .drop))
      | none => if q.bypass then none else some (.verdict .drop)
  | .dnat target port =>
      if target.is4 = decide (pkt.family = .ip) then some (.dnat target port) else none
  | .snat target => if target.is4 = decide (pkt.family = .ip) then some (.snat target) else none
  | .masquerade => some .masquerade
  | _ => none

/-- Do all matches of a rule hold? -/
def Line.applies (env : Env) (pkt : Packet) (l : Line) : Bool :=
  l.conds.all fun m => m.holds env pkt

/-- The effect of a rule on a packet. -/
def Line.run (env : Env) (pkt : Packet) (l : Line) : Option Effect :=
  if l.applies env pkt then l.stmts.findSome? (Stmt.effect env pkt) else none

/-- The effect of a chain: that of the first rule that has one. `none` leaves the packet
to the chain's policy. -/
def Chain.run (env : Env) (pkt : Packet) (c : Chain) : Option Effect :=
  c.lines.findSome? (Line.run env pkt)

/-! ### Facts about evaluation -/

/-- Go's containment test and the kernel's mask comparison are the same test, for
addresses without a zone. -/
theorem contains_eq_covers (p : Prefix) {a : Addr} (ha : a.zone = "") :
    p.contains a = covers p a := by
  unfold Prefix.contains covers
  cases hp : p.addr with
  | v4 x =>
      cases a with
      | v4 y => exact Prefix.shift_xor_eq_zero x y
      | v6 y z => rfl
  | v6 x z =>
      cases a with
      | v4 y => rfl
      | v6 y z' =>
          simp only [Addr.zone] at ha
          simp only [ha, beq_self_eq_true, Bool.true_and]
          exact Prefix.and_xor_eq_zero x y

/-- A prefix covers addresses of its own family only. -/
theorem family_of_covers {p : Prefix} {a : Addr} (h : covers p a = true) :
    p.addr.is4 = a.is4 := by
  unfold covers at h
  cases hp : p.addr with
  | v4 x =>
      cases a with
      | v4 y => rfl
      | v6 y z => simp [hp] at h
  | v6 x z =>
      cases a with
      | v4 y => simp [hp] at h
      | v6 y z' => rfl

/-- A prefix covers its own address. -/
theorem covers_self (p : Prefix) : covers p p.addr = true := by
  unfold covers
  cases p.addr <;> simp [Prefix.maskedEq]

@[simp] theorem Packet.src_zone (pkt : Packet) : pkt.src.zone = "" := by
  unfold Packet.src
  cases pkt.header <;> rfl

@[simp] theorem Packet.dst_zone (pkt : Packet) : pkt.dst.zone = "" := by
  unfold Packet.dst
  cases pkt.header <;> rfl

theorem Packet.src_is4 (pkt : Packet) : pkt.src.is4 = decide (pkt.family = .ip) := by
  unfold Packet.src Packet.family
  cases pkt.header <;> rfl

theorem Packet.dst_is4 (pkt : Packet) : pkt.dst.is4 = decide (pkt.family = .ip) := by
  unfold Packet.dst Packet.family
  cases pkt.header <;> rfl

/-- The packet a destination translation leaves behind. -/
def Packet.dnatted (pkt : Packet) : Option Effect → Packet
  | some (.dnat target port) =>
      { pkt.withDst target with dport := if port = 0 then pkt.dport else port }
  | _ => pkt

@[simp] theorem Packet.dnatted_family (pkt : Packet) (e : Option Effect) :
    (pkt.dnatted e).family = pkt.family := by
  unfold Packet.dnatted
  split
  · rename_i target port
    unfold Packet.withDst Packet.family
    cases hh : pkt.header <;> cases target <;> simp [hh]
  · rfl

@[simp] theorem Packet.dnatted_ct (pkt : Packet) (e : Option Effect) :
    (pkt.dnatted e).ct = pkt.ct := by
  unfold Packet.dnatted
  split
  · rename_i target port
    unfold Packet.withDst
    cases hh : pkt.header <;> cases target <;> rfl
  · rfl

/-- A prefix that covers one host covers exactly its own address. -/
theorem covers_of_isSingleIP {p : Prefix} (h : p.isSingleIP = true) {a : Addr} (ha : a.zone = "") :
    covers p a = decide (p.addr = a) := by
  obtain ⟨addr, bits, hbits, hzone⟩ := p
  unfold Prefix.isSingleIP at h
  rw [beq_iff_eq] at h
  simp only at h hzone ⊢
  subst h
  cases addr with
  | v4 x =>
      cases a with
      | v4 y => simp only [covers, Addr.bitLen, Prefix.maskedEq_full, Addr.v4.injEq, eq_comm]
      | v6 y z => simp [covers]
  | v6 x z =>
      cases a with
      | v4 y => simp [covers]
      | v6 y z' =>
          simp only [Addr.zone] at ha hzone
          simp only [covers, Addr.bitLen, Prefix.maskedEq_full, Addr.v6.injEq, ha, hzone, and_true,
            eq_comm]

/-- A rule whose effect does not depend on the packet has it exactly where it applies. -/
theorem Line.run_eq {env : Env} {pkt : Packet} {l : Line} {e : Option Effect}
    (h : l.stmts.findSome? (Stmt.effect env pkt) = e) :
    l.run env pkt = if l.applies env pkt then e else none := by
  rw [Line.run, h]

/-- Rules that all have one and the same effect: the search finds it exactly when one of
them applies. -/
theorem findSome?_const {α β : Type} (p : α → Bool) (b : β) : ∀ l : List α,
    (l.findSome? fun a => if p a then some b else none) = if l.any p then some b else none := by
  intro l
  induction l with
  | nil => rfl
  | cons a l ih =>
      rw [List.findSome?_cons, ih, List.any_cons]
      cases p a <;> simp

end Phragma.Nft
