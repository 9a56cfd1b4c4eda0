import Cimogus.Linux.Firewall

/-!
# The layout of the IPv4 filter table

The scripts leave the IPv4 filter table in one of two forms: without any chain of this firewall (`blank`), or with all
anchors in place (`layout`), where only which anchors are enabled and the networks of three of them vary (`Setup`). The
lemmas say what every script does to the two forms; a packet's verdict is then that of the enabled anchors in order
(`verdict_layout`).
-/

namespace Cimogus.Linux

open Lib.Iptables List

/-- The anchors of the IPv4 filter table in order. -/
def filterAnchors : List Anchor :=
  [.allowLoopback, .allowDNS, .blockDNS, .allowLAN, .allowDHCP, .allowVPN, .blockNets, .allowNets, .blockAll]

structure Setup where
  enabled : Anchor → Bool
  dns : List Net
  allow : List Net
  block : List Net

def Setup.rules (s : Setup) : Anchor → List FwRule
  | .allowLoopback => loopbackRules
  | .allowDNS => s.dns.flatMap dnsRules
  | .blockDNS => blockDNSRules
  | .allowLAN => allowRules lanNets
  | .allowDHCP => dhcpRules
  | .allowVPN => vpnRules
  | .blockNets => blockRules s.block
  | .allowNets => allowRules s.allow
  | .blockAll => [reject {}]
  | _ => []

def Setup.placeholder (s : Setup) (a : Anchor) : List FwRule := if s.enabled a then [jumpTo (.actual a)] else []

def blank : Chains
  | .builtin => some []
  | _ => none

/-- The chains of the anchors in `present`, with the given root chain and link to it. -/
def chainsLayout (s : Setup) (builtin : List FwRule) (root : Option (List FwRule)) (present : Anchor → Bool) : Chains
  | .builtin => some builtin
  | .root => root
  | .placeholder a => if present a then some (s.placeholder a) else none
  | .actual a => if present a then some (s.rules a) else none

def rootRules (as : List Anchor) : List FwRule := as.map fun a => jumpTo (.placeholder a)

def layout (s : Setup) : Chains :=
  chainsLayout s [jumpTo .root] (some (rootRules filterAnchors)) fun a => decide (a ∈ filterAnchors)

/-! ## Rules with a verdict -/

def Flat (rules : List FwRule) : Prop := ∀ r ∈ rules, ∀ c, r.target ≠ .jump c

variable (s : Setup) {a : Anchor}

open Setup

theorem Setup.flat_rules (a : Anchor) : Flat (s.rules a) := by
  intro r hr c
  cases a with
  | allowDNS =>
    obtain ⟨n, _, hr⟩ := mem_flatMap.mp hr
    simp only [dnsRules, accept, mem_cons, not_mem_nil, or_false] at hr
    rcases hr with rfl | rfl | rfl | rfl <;> simp
  | allowNets | allowLAN =>
    obtain ⟨n, _, rfl⟩ := mem_map.mp hr
    simp [accept]
  | blockNets =>
    obtain ⟨n, _, rfl⟩ := mem_map.mp hr
    simp [reject]
  | allowLoopback | blockDNS | allowDHCP | allowVPN | blockAll =>
    simp only [rules, loopbackRules, blockDNSRules, dhcpRules, vpnRules, accept, reject, mem_cons, not_mem_nil,
      or_false] at hr
    rcases hr with rfl | rfl <;> simp
  | allowPIA | blockIPv6 | transIp | tagPkts | vpnTunOnly => cases hr

variable {t : Chains}

theorem usable_of_flat {r : FwRule} (h : ∀ c, r.target ≠ .jump c) : t.Usable r := by
  unfold Table.Usable
  split
  · rename_i d hd
    exact absurd hd (h d)
  · trivial

open Table

variable {c : ChainName}

/-- Appending rules one after the other. -/
theorem foldl_append : ∀ (rules : List FwRule) {t : Chains} {old : List FwRule}, Flat rules →
    t c = some old → rules.foldl (fun t r => attempt (append c r) t) t = Function.update t c (some (old ++ rules))
  | [], t, old, _, h => by
    rw [append_nil, ← h, Function.update_eq_self]
    rfl
  | r :: rules, t, old, hfl, h => by
    have hr : t.Usable r := usable_of_flat (hfl r mem_cons_self)
    have hst : attempt (append c r) t = Function.update t c (some (old ++ [r])) := by
      simp only [attempt, append, addRule, h, if_pos hr, Option.getD_some]
    rw [foldl_cons, hst, foldl_append rules (fun s hs => hfl s (mem_cons_of_mem _ hs))
      (Function.update_self ..), Function.update_idem, append_assoc]
    rfl

/-! ## Changing one chain -/

section Update

variable (s : Setup) (b : List FwRule) (r : Option (List FwRule)) (pr : Anchor → Bool)

theorem update_builtin (b' : List FwRule) :
    Function.update (chainsLayout s b r pr) .builtin (some b') = chainsLayout s b' r pr := by
  funext c
  cases c <;> simp [Function.update, chainsLayout]

theorem update_root (r' : Option (List FwRule)) :
    Function.update (chainsLayout s b r pr) .root r' = chainsLayout s b r' pr := by
  funext c
  cases c <;> simp [Function.update, chainsLayout]

theorem update_placeholder (ha : pr a = true) (on : Bool) :
    Function.update (chainsLayout s b r pr) (.placeholder a) (some (if on then [jumpTo (.actual a)] else [])) =
      chainsLayout { s with enabled := Function.update s.enabled a on } b r pr := by
  funext c
  cases c with
  | builtin | root => rfl
  | placeholder a' =>
    by_cases h : a' = a
    · subst h; simp [chainsLayout, placeholder, ha]
    · simp [chainsLayout, placeholder, h]
  | actual a' => cases a' <;> rfl

/-- New rules for one anchor. -/
theorem update_actual (ha : pr a = true) {s' : Setup} (he : s'.enabled = s.enabled)
    (ho : ∀ a', a' ≠ a → s'.rules a' = s.rules a') :
    Function.update (chainsLayout s b r pr) (.actual a) (some (s'.rules a)) = chainsLayout s' b r pr := by
  funext c
  cases c with
  | builtin | root => rfl
  | placeholder a' => simp [chainsLayout, placeholder, he]
  | actual a' =>
    by_cases h : a' = a
    · subst h; simp [chainsLayout, ha]
    · simp [chainsLayout, h, ho a' h]

theorem update_absent (a : Anchor) :
    Function.update (Function.update (chainsLayout s b r pr) (.placeholder a) none) (.actual a) none =
      chainsLayout s b r (Function.update pr a false) := by
  funext c
  cases c with
  | builtin | root => rfl
  | placeholder a' | actual a' =>
    by_cases h : a' = a
    · subst h; simp [chainsLayout, Function.update]
    · simp [chainsLayout, Function.update, h]

end Update

theorem blank_eq : blank = chainsLayout s [] none fun _ => false := by
  funext c
  cases c <;> rfl

/-! ## Deleting -/

theorem deleteChain_eq (h : ∀ d, d ≠ c → ∀ r ∈ (t d).getD [], r.target ≠ .jump c) :
    deleteChain c t = Function.update t c none := by
  unfold deleteChain flush
  cases hc : t c with
  | none =>
    simp only [Option.map_none]
    rw [← hc, Function.update_eq_self]
  | some rules =>
    have hno : ¬Table.Referenced (Function.update t c (some [])) c := by
      rintro ⟨d, r, hr, hj⟩
      by_cases hd : d = c
      · subst hd; simp at hr
      · rw [Function.update_of_ne hd] at hr
        exact h d hd r hr hj
    simp only [Option.map_some, attempt, deleteEmpty, Function.update_self, true_and, if_pos hno,
      Option.getD_some, Function.update_idem]

/-- The targets of the rules of a layout. -/
theorem target_of_mem {s : Setup} {b : List FwRule} {root : Option (List FwRule)} {pr : Anchor → Bool} {d : ChainName}
    {r : FwRule} (hr : r ∈ (chainsLayout s b root pr d).getD []) (hc : r.target = .jump c) :
    (d = .builtin ∧ r ∈ b) ∨ (d = .root ∧ r ∈ root.getD []) ∨ ∃ a, d = .placeholder a ∧
    c = .actual a := by
  cases d with
  | builtin => exact .inl ⟨rfl, hr⟩
  | root => exact .inr (.inl ⟨rfl, hr⟩)
  | placeholder a =>
    simp only [chainsLayout, placeholder] at hr
    split at hr
    · split at hr
      · simp only [Option.getD_some, mem_singleton] at hr
        subst hr
        simpa [jumpTo] using hc.symm
      · simp at hr
    · simp at hr
  | actual a =>
    simp only [chainsLayout] at hr
    split at hr
    · exact absurd hc (s.flat_rules a r hr c)
    · simp at hr

theorem uninstallAnchor_layout (pr : Anchor → Bool) (a : Anchor) :
    uninstallAnchor a (chainsLayout s [] none pr) = chainsLayout s [] none (Function.update pr a false) := by
  have hu : unlinkChain (.placeholder a) .root (chainsLayout s [] none pr) = chainsLayout s [] none pr := rfl
  have ht : ∀ {d r c}, r ∈ (chainsLayout s [] none pr d).getD [] → r.target = .jump c →
      ∃ a, d = .placeholder a ∧ c = .actual a := by
    intro d r c hr hc
    rcases target_of_mem hr hc with ⟨_, h⟩ | ⟨_, h⟩ | h
    · cases h
    · cases h
    · exact h
  have hpl : ∀ d, d ≠ .placeholder a → ∀ r ∈ (chainsLayout s [] none pr d).getD [],
      r.target ≠ .jump (.placeholder a) := by
    intro d _ r hr hc
    obtain ⟨a', _, ha'⟩ := ht hr hc
    cases ha'
  have ha : ∀ d, d ≠ .actual a →
      ∀ r ∈ (Function.update (chainsLayout s [] none pr) (.placeholder a) none d).getD [],
      r.target ≠ .jump (.actual a) := by
    intro d _ r hr hc
    by_cases hp : d = .placeholder a
    · subst hp; simp at hr
    · rw [Function.update_of_ne hp] at hr
      obtain ⟨a', rfl, ha'⟩ := ht hr hc
      cases ha'
      exact hp rfl
  rw [uninstallAnchor, hu, deleteChain_eq hpl, deleteChain_eq ha, update_absent]

theorem foldl_uninstallAnchor (s : Setup) : ∀ (as : List Anchor) (pr : Anchor → Bool),
    as.foldl (fun t a => uninstallAnchor a t) (chainsLayout s [] none pr) =
      chainsLayout s [] none fun a => pr a && !decide (a ∈ as)
  | [], pr => by simp
  | a :: as, pr => by
    rw [foldl_cons, uninstallAnchor_layout, foldl_uninstallAnchor s as]
    congr 1
    funext a'
    by_cases h : a' = a
    · subst h; simp
    · simp [h]

/-- The part of `uninstall` that works on the IPv4 filter table. -/
def uninstallFilter (t : Chains) : Chains :=
  [Anchor.allowLoopback, .allowPIA, .allowDNS, .blockDNS, .allowLAN, .allowDHCP, .allowVPN, .blockNets, .allowNets,
    .blockAll].foldl (fun t a => uninstallAnchor a t) (deleteChain .root (unlinkChain .root .builtin t))

open Firewall

theorem chains_uninstall (fw : Firewall) :
    fw.uninstall.chains .ipv4 .filter = uninstallFilter (fw.chains .ipv4 .filter) := by
  simp [uninstall, removeRoot, uninstallTable, chains_script, IPVersion.includes, uninstallFilter]

theorem uninstallFilter_eq {s : Setup} {pr : Anchor → Bool} (hpr : ∀ a, pr a = true → a ∈ filterAnchors)
    (h : deleteChain .root (unlinkChain .root .builtin t) = chainsLayout s [] none pr) : uninstallFilter t = blank := by
  rw [uninstallFilter, h, foldl_uninstallAnchor, blank_eq s]
  congr 1
  funext a
  cases ha : pr a with
  | false => rfl
  | true =>
    have hm := hpr a ha
    cases a <;> first | rfl | exact absurd hm (by decide)

theorem uninstallFilter_blank : uninstallFilter blank = blank := by
  have s : Setup := ⟨fun _ => false, [], [], []⟩
  have hpr : ∀ a : Anchor, (fun _ : Anchor => false) a = true → a ∈ filterAnchors := by simp
  refine uninstallFilter_eq (s := s) hpr ?_
  have hu : unlinkChain .root .builtin blank = blank := rfl
  have hd : deleteChain .root blank = blank := rfl
  rw [hu, hd, blank_eq s]

theorem uninstallFilter_layout : uninstallFilter (layout s) = blank := by
  have hpr : ∀ a : Anchor, (fun a => decide (a ∈ filterAnchors)) a = true → a ∈ filterAnchors := by simp
  refine uninstallFilter_eq (s := s) hpr ?_
  have hu : unlinkChain .root .builtin (layout s) =
      chainsLayout s [] (some (rootRules filterAnchors)) fun a => decide (a ∈ filterAnchors) := by
    rw [← update_builtin s [jumpTo .root]]
    rfl
  have hde : ∀ d, d ≠ .root → ∀ r ∈ (chainsLayout s [] (some (rootRules filterAnchors))
      (fun a => decide (a ∈ filterAnchors)) d).getD [], r.target ≠ .jump .root := by
    intro d hd r hr hc
    rcases target_of_mem hr hc with ⟨_, h⟩ | ⟨h, _⟩ | ⟨a, _, ha⟩
    · cases h
    · exact hd h
    · cases ha
  rw [hu, deleteChain_eq hde, update_root]

/-! ## Installing -/

/-- Right after `install` every anchor is in place and none is enabled. -/
def Setup.base : Setup := ⟨fun _ => false, [], [], []⟩

/-- The anchors in `as` are in place, and nothing links to them yet. -/
def installed (as : List Anchor) : Chains := chainsLayout .base [] (some (rootRules as)) fun a => decide (a ∈ as)

theorem installAnchor_installed {as : List Anchor} (ha : a ∉ as) :
    installAnchor a (base.rules a) (installed as) = installed (as ++ [a]) := by
  -- the placeholder
  have hnew : createChain (.placeholder a) (installed as) =
      Function.update (installed as) (.placeholder a) (some []) := by
    simp [createChain, newChain, installed, chainsLayout, ha]
  have hl : linkChain (.placeholder a) .root (Function.update (installed as) (.placeholder a) (some [])) =
      Function.update (Function.update (installed as) (.placeholder a) (some [])) .root
        (some (rootRules (as ++ [a]))) := by
    simp [linkChain, check, attempt, append, addRule, Table.Usable, jumpTo, installed, chainsLayout, rootRules, ha]
  -- the chain with the rules
  have hac : createChain (.actual a) (Function.update (Function.update (installed as) (.placeholder a) (some [])) .root
      (some (rootRules (as ++ [a])))) =
        Function.update (Function.update (Function.update (installed as) (.placeholder a)
        (some [])) .root (some (rootRules (as ++ [a])))) (.actual a) (some []) := by
    simp [createChain, newChain, installed, chainsLayout, ha]
  rw [installAnchor, hnew, hl, hac, foldl_append _ (flat_rules _ a) (Function.update_self ..)]
  funext c
  cases c with
  | builtin | root => rfl
  | placeholder a' | actual a' =>
    by_cases h : a' = a
    · subst h; simp [installed, chainsLayout, placeholder, base]
    · simp [installed, chainsLayout, h]

theorem foldl_installAnchor : ∀ (as before : List Anchor), (before ++ as).Nodup →
    as.foldl (fun t a => installAnchor a (base.rules a) t) (installed before) = installed (before ++ as)
  | [], before, _ => by simp
  | a :: as, before, h => by
    have ha : a ∉ before := fun hb => (nodup_append.mp h).2.2 a hb a mem_cons_self rfl
    rw [foldl_cons, installAnchor_installed ha, foldl_installAnchor as (before ++ [a]) (by simpa using h)]
    simp

theorem chains_install (fw : Firewall) : fw.install.chains .ipv4 .filter =
    linkChainFirst .root .builtin (filterAnchors.foldl (fun t a => installAnchor a (base.rules a) t)
      (createChain .root (fw.uninstall.chains .ipv4 .filter))) := by
  simp [install, anchorTable, chains_script, IPVersion.includes, filterAnchors, rules, base, allowRules, blockRules]

variable {fw : Firewall}

theorem install_blank (h : fw.uninstall.chains .ipv4 .filter = blank) :
    fw.install.chains .ipv4 .filter = layout .base := by
  have hr : createChain .root blank = installed [] := by
    have hnew : createChain .root blank = Function.update blank .root (some []) := rfl
    rw [hnew, blank_eq .base, update_root]
    simp [installed, rootRules]
  have hl : linkChainFirst .root .builtin (installed filterAnchors) =
      Function.update (installed filterAnchors) .builtin (some [jumpTo .root]) := rfl
  rw [chains_install, h, hr, foldl_installAnchor filterAnchors [] (by decide), nil_append, hl, installed,
    update_builtin, layout]

/-! ## Enabling anchors and replacing rules -/

theorem setAnchorEnabled_blank (a : Anchor) (on : Bool) : setAnchorEnabled a on blank = blank := by
  cases on <;> rfl

theorem layout_enabled_absent (ha : a ∉ filterAnchors) (on : Bool) :
    layout { s with enabled := Function.update s.enabled a on } = layout s := by
  funext c
  cases c with
  | builtin | root => rfl
  | placeholder a' =>
    by_cases h : a' = a
    · subst h; simp [layout, chainsLayout, ha]
    · simp [layout, chainsLayout, placeholder, h]
  | actual a' => cases a' <;> rfl

theorem setAnchorEnabled_layout (a : Anchor) (on : Bool) :
    setAnchorEnabled a on (layout s) = layout { s with enabled := Function.update s.enabled a on } := by
  by_cases ha : a ∈ filterAnchors
  · have hu := update_placeholder s [jumpTo .root] (some (rootRules filterAnchors))
      (fun a => decide (a ∈ filterAnchors)) (decide_eq_true ha) on
    have hp : layout s (.placeholder a) = some (s.placeholder a) := by simp [layout, chainsLayout, ha]
    have hac : layout s (.actual a) = some (s.rules a) := by simp [layout, chainsLayout, ha]
    rw [← layout, ← layout] at hu
    rw [← hu]
    cases on <;> cases hon : s.enabled a <;>
      simp [setAnchorEnabled, enableAnchor, disableAnchor, check, hp, hac, placeholder, hon,
        attempt, append, addRule, Table.Usable, flush, jumpTo]
  · have hab : layout s (.placeholder a) = none := by simp [layout, chainsLayout, ha]
    rw [layout_enabled_absent s ha]
    cases on <;>
      simp [setAnchorEnabled, enableAnchor, disableAnchor, check, hab, attempt, append, addRule]

theorem replaceRules_blank (a : Anchor) (rules : List FwRule) : replaceRules a rules blank = blank := by
  induction rules with
  | nil => rfl
  | cons r rules ih => exact ih

theorem replaceRules_layout {s : Setup} (s' : Setup) {a : Anchor} (ha : a ∈ filterAnchors)
    (he : s'.enabled = s.enabled)
    (ho : ∀ a', a' ≠ a → s'.rules a' = s.rules a') : replaceRules a (s'.rules a) (layout s) = layout s' := by
  have hac : layout s (.actual a) = some (s.rules a) := by simp [layout, chainsLayout, ha]
  have hfl : attempt (flush (.actual a)) (layout s) = Function.update (layout s) (.actual a) (some []) := by
    simp [attempt, flush, hac]
  rw [replaceRules, hfl, foldl_append _ (s'.flat_rules a) (Function.update_self ..), Function.update_idem,
    nil_append, layout, update_actual s _ _ _ (by simpa using ha) he ho, layout]

theorem linkChainFirst_layout : linkChainFirst .root .builtin (layout s) = layout s := rfl

/-! ## Verdicts -/

def decideRules (rules : List FwRule) (p : Packet) : Option Verdict := walkRules Cond.eval (fun _ _ => none) rules p

theorem walkRules_flat (sub : ChainName → Packet → Option Verdict) (p : Packet) :
    ∀ {rules : List FwRule}, Flat rules →
    walkRules Cond.eval sub rules p = decideRules rules p
  | [], _ => rfl
  | r :: rules, h => by
    have hrest := walkRules_flat sub p fun s hs => h s (mem_cons_of_mem _ hs)
    have hh := h r mem_cons_self
    rw [decideRules, walkRules, walkRules]
    cases ht : r.target with
    | jump c => exact absurd ht (hh c)
    | verdict v => simp only [hrest, decideRules]
    | mangle => simp only [hrest, decideRules]

theorem walk_actual {s : Setup} (ha : a ∈ filterAnchors) (n : Nat) (p : Packet) :
    (layout s).walk Cond.eval (n + 1) (.actual a) p = decideRules (s.rules a) p := by
  simp [walk, layout, chainsLayout, ha, walkRules_flat _ _ (s.flat_rules a)]

theorem walk_placeholder {s : Setup} (ha : a ∈ filterAnchors) (n : Nat) (p : Packet) :
    (layout s).walk Cond.eval (n + 2) (.placeholder a) p = if s.enabled a then decideRules (s.rules a) p else none := by
  have hc : (layout s (.placeholder a)).getD [] = s.placeholder a := by simp [layout, chainsLayout, ha]
  rw [walk, hc, placeholder]
  split
  · have hju := walk_actual (s := s) ha n p
    simp [jumpTo, walkRules, Cond.eval, hju]
  · rfl

theorem verdict_layout {s : Setup} (h : fw.chains .ipv4 .filter = layout s) (p : Packet) :
    fw.verdict p = (filterAnchors.findSome? fun a => if s.enabled a then decideRules (s.rules a) p else none).getD
      .accept := by
  have hal : Cond.eval {} p = true := rfl
  have hr : ∀ n, (layout s).walk Cond.eval (n + 3) .root p =
      filterAnchors.findSome? fun a => if s.enabled a then decideRules (s.rules a) p else none := by
    intro n
    have hju := walkRules_jumps ((layout s).walk Cond.eval (n + 2)) hal
      (filterAnchors.map ChainName.placeholder)
    rw [walk]
    refine Eq.trans ?_ (hju.trans ?_)
    · simp [layout, chainsLayout, rootRules, jumpTo, Function.comp_def]
    · exact findSome?_congr fun a ha => walk_placeholder ha n p
  have hb : (layout s).walk Cond.eval depth .builtin p = (layout s).walk Cond.eval (26 + 3) .root p := by
    simp [depth, Anchor.all, walk, layout, chainsLayout, jumpTo, walkRules, hal]
  rw [verdict, h, hb, hr]

theorem verdict_blank (h : fw.chains .ipv4 .filter = blank) (p : Packet) : fw.verdict p = .accept := by
  rw [verdict, h]
  rfl

end Cimogus.Linux
