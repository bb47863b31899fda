import LightSocks.Server.Replies

/-!
# The two address types

A request can carry an IPv4 address or the text of one.  `dns_cb` parses the
text back into the same address (`inetPton_inetNtop`), but that is as far as the
agreement goes.

* `Mode.target`, `Shape.connects_eq` — what has been connected to in each phase.
* `ipv4_run` — after an `ATYP = 1` request nothing is ever connected to.
* `domain_run` — after an `ATYP = 3` request the answer of the resolver is, at
  the port of the request.
* `address_types_disagree` — at no point of their runs have the two sessions
  connected to the same targets and written the same replies.
-/

namespace LightSocks

open Transition

variable {P : Key} {m : Mode} {s t : Session}

/-! ## What has been connected to -/

/-- The target of the session, once there is one. -/
def Mode.target : Mode → Option Target
  | .stranded target | .relay target | .abandoned target => some target
  | .closed target => target
  | _ => none

theorem Shape.connects_eq (h : Shape P m s) :
    s.connects = m.target.toList ∧ s.addrinfos = m.target.toList.length := by
  cases h <;> exact ⟨rfl, rfl⟩

/-- Outside the `ATYP = 1` phase success is announced only after a connect. -/
theorem Shape.connects_of_announced (h : Shape P m s) (h4 : m ≠ .ipv4) (ha : Announced s) :
    s.connects ≠ [] := by
  cases h with
  | ipv4 _ _ => exact absurd rfl h4
  | greeting _ _ => exact absurd ha List.not_mem_nil
  | request _ _ | resolving _ _ | unresolved _ _ | orphaned _ _ =>
      exact absurd ha (not_announced rfl rfl)
  | closedAlone _ hreplies _ => exact absurd ha hreplies
  | stranded _ _ _ | relay _ _ _ | abandoned _ _ _ | closedPaired _ _ _ =>
      exact List.cons_ne_nil _ _

/-- A session that waits for a request, with nothing else due. -/
def AwaitsRequest (s : Session) : Prop :=
  ∃ c, s.bevs[0]? = some c ∧ c.live = true ∧ c.callbacks.readcb = some .handleSecond ∧
    c.readPending = false

theorem Shape.awaitsRequest (h : Shape P m s) (ha : AwaitsRequest s) :
    ∃ c port ip, s = .alone (some ⟨some 0, none, port, ip⟩) c [] [] [methodReply.toList] ∧
      Served c .handleSecond (some .socks5Ctx) ∧ c.readPending = false := by
  obtain ⟨c, h0, hl, hcb, hread⟩ := ha
  cases h with
  | request hc _ => cases h0; exact ⟨_, _, _, rfl, hc, hread⟩
  | orphaned hc _ | abandoned hc _ _ | closedAlone hc _ _ | closedPaired hc _ _ =>
      cases h0
      rw [hc] at hl
      cases hl
  | greeting hc _ | ipv4 hc _ | resolving hc _ | unresolved hc _ | stranded hc _ _
  | relay hc _ _ =>
      cases h0
      rw [hc.callbacks] at hcb
      cases hcb

/-- What a request does to such a session, whatever follows. -/
theorem request_run {msg : List UInt8} {choice : Choice} {es : List Event} (hs : Reachable P s)
    (ha : AwaitsRequest s) (hmsg : msg ≠ [])
    (hr : Run (Step P) s (delivery (P.encrypt msg) choice ++ es) t) :
    ∃ u, RequestOutcome P msg choice u ∧ Reachable P u ∧ Run (Step P) u es t := by
  obtain ⟨m, hm⟩ := hs.shape
  obtain ⟨c, port, ip, rfl, hc, hread⟩ := hm.awaitsRequest ha
  obtain ⟨u, hu, hrest⟩ := hr.of_append
  have hne : P.encrypt msg ≠ [] := encrypt_ne_nil P hmsg
  have henabled : c.readEnabled = true := by
    cases hu with
    | cons h _ =>
        obtain ⟨b, hb, hadmits, -⟩ := Session.fire_socket h
        obtain ⟨-, rfl⟩ := getElem?_one hb
        exact hadmits.2.2.1
  have hout := (delivery_request ⟨hc, henabled, hread⟩ hne hu).1
  rw [Key.decrypt_encrypt] at hout
  exact ⟨u, hout, hs.run hu, hrest⟩

/-! ## The two runs -/

/-- After an `ATYP = 1` request success is announced and nothing is ever
connected to. -/
theorem ipv4_run {addr : InAddr} {hi lo : UInt8} {choice : Choice} {es : List Event}
    (hs : Reachable P s) (ha : AwaitsRequest s)
    (hr : Run (Step P) s (delivery (P.encrypt (ipv4Request addr hi lo)) choice ++ es) t) :
    Announced t ∧ t.connects = [] := by
  obtain ⟨u, hout, hu, hrest⟩ := request_run hs ha (by simp [ipv4Request]) hr
  obtain ⟨m, hm⟩ := hu.shape
  have h4 := asksIpv4_ipv4Request addr hi lo
  have hipv4 : m = .ipv4 := by
    cases hout with
    | ignored hn _ _ => exact absurd h4 hn
    | asked hd _ _ => exact absurd hd h4.not_asksDomain
    | answered hd _ _ _ _ _ _ _ _ _ => exact absurd hd h4.not_asksDomain
    | ipv4 _ hc =>
        by_contra hne
        exact hm.connects_of_announced hne (List.mem_cons_of_mem _ List.mem_cons_self) rfl
  subst hipv4
  have ht := stays_ipv4 hrest hm
  refine ⟨?_, ht.connects_eq.1⟩
  cases ht with
  | ipv4 _ _ => exact List.mem_cons_of_mem _ List.mem_cons_self

/-- Whenever the resolver answers, it answers `addr`. -/
def ResolverReturns (addr : InAddr) : Event → Prop
  | .readCb _ choice => ∀ answer, choice.resolved = some (.found answer) → answer.sinAddr = addr
  | .dnsDone _ result _ => ∀ answer, result = .found answer → answer.sinAddr = addr
  | _ => True

theorem DnsResult.kind_eq {result : DnsResult} {addr : InAddr}
    (h : result.kind = .getsAddress addr) :
    ∃ answer, result = .found answer ∧ answer.sinAddr = addr := by
  cases result with
  | error e => cases h
  | found answer => exact ⟨answer, rfl, by simpa [DnsResult.kind] using h⟩

theorem ResolverReturns.kind_eq {e : Event} {addr addr' : InAddr} (h : ResolverReturns addr e)
    (hk : kind P s e = .getsAddress addr') : addr' = addr := by
  cases e with
  | socket p e => cases hk
  | eventCb p =>
      simp only [kind] at hk
      split at hk
      · cases hk
      · split at hk <;> cases hk
  | dnsDone nodename result re =>
      obtain ⟨answer, hfound, rfl⟩ := DnsResult.kind_eq hk
      exact h answer hfound
  | readCb p choice =>
      simp only [kind] at hk
      split at hk
      · cases hk
      split at hk
      · unfold messageKind at hk
        split at hk
        · cases hk
        split at hk
        · cases hres : choice.resolved with
          | none => rw [hres] at hk; cases hk
          | some result =>
              rw [hres] at hk
              obtain ⟨answer, rfl, rfl⟩ := DnsResult.kind_eq hk
              exact h answer hres
        · cases hk
      · cases hk

/-- The phases of a session that has asked for a host at `port` and is given
`addr`. -/
def Mode.AsksFor (addr : InAddr) (port : ℕ) : Mode → Prop
  | .greeting | .request | .ipv4 => False
  | .resolving _ p => p = port
  | .unresolved | .orphaned | .closed none => True
  | .stranded x | .relay x | .abandoned x | .closed (some x) => x = (addr, UInt16.ofNat port)

theorem Move.asksFor {addr : InAddr} {port : ℕ} {m' : Mode} {k : Kind} (hmove : Move m k m')
    (hk : ∀ a, k = .getsAddress a → a = addr) (h : m.AsksFor addr port) :
    m'.AsksFor addr port := by
  cases hmove with
  | stay => exact h
  | greeted | tookIpv4 | asked _ _ | failedAtOnce | attachedAtOnce _ | strandedAtOnce _
  | ignored => exact absurd h id
  | attached | stranded =>
      obtain rfl := hk _ rfl
      obtain rfl : _ = port := h
      rfl
  | released h' => rcases h' with rfl | rfl <;> exact h
  | abandoned => exact h
  | failed | closed _ | orphaned | ended => trivial

theorem Shape.asksFor {addr : InAddr} {port : ℕ} (h : Shape P m s) (hqueries : s.queries ≠ [])
    (hport : ∀ ctx, s.context = some ctx → ctx.requestPort = port)
    (hconnects : ∀ x ∈ s.connects, x = (addr, UInt16.ofNat port)) : m.AsksFor addr port := by
  cases h with
  | greeting _ _ | request _ _ | ipv4 _ _ => exact absurd rfl hqueries
  | resolving _ _ => exact hport _ rfl
  | unresolved _ _ | orphaned _ _ | closedAlone _ _ _ => trivial
  | stranded _ _ _ | relay _ _ _ | abandoned _ _ _ | closedPaired _ _ _ =>
      exact hconnects _ List.mem_cons_self

/-- After an `ATYP = 3` request what is connected to is the answer of the
resolver, at the port of the request. -/
theorem domain_run {addr : InAddr} {host : List UInt8} {hi lo : UInt8} {choice : Choice}
    {es : List Event} (hs : Reachable P s) (ha : AwaitsRequest s)
    (hres : ∀ e ∈ delivery (P.encrypt (domainRequest host hi lo)) choice ++ es,
      ResolverReturns addr e)
    (hr : Run (Step P) s (delivery (P.encrypt (domainRequest host hi lo)) choice ++ es) t) :
    ∃ m, m.AsksFor addr (portOf hi lo) ∧ Shape P m t := by
  obtain ⟨u, hout, hu, hrest⟩ := request_run hs ha (by simp [domainRequest]) hr
  obtain ⟨m, hm⟩ := hu.shape
  have hstart : m.AsksFor addr (portOf hi lo) := by
    cases hout with
    | ignored _ hd _ => exact absurd asksDomain_domainRequest hd
    | ipv4 h4 _ => exact absurd h4 not_asksIpv4_domainRequest
    | asked _ _ _ =>
        refine hm.asksFor (List.cons_ne_nil _ _) ?_ (fun _ h => absurd h List.not_mem_nil)
        rintro ctx ⟨⟩
        exact portAtEnd_domainRequest
    | answered _ hchoice hctx hport _ _ hqueries _ _ hconnects =>
        rw [portAtEnd_domainRequest] at hport hconnects
        refine hm.asksFor (by rw [hqueries]; exact List.cons_ne_nil _ _) ?_ ?_
        · intro ctx h
          cases hctx.symm.trans h
          exact hport
        · intro x hx
          obtain ⟨hk, hx₂⟩ := hconnects x hx
          obtain ⟨answer, rfl, haddr⟩ := DnsResult.kind_eq hk
          have hread : ResolverReturns addr (.readCb 0 choice) := hres _ (by simp [delivery])
          exact Prod.ext (haddr.symm.trans (hread answer hchoice)) hx₂
  exact guarded_modes (C := fun _ e => ResolverReturns addr e)
    (fun _ _ _ _ _ hC hmove h => hmove.asksFor (fun _ hk => hC.kind_eq hk) h)
    (hrest.guarded_of_forall fun e he _ => hres e (List.mem_append_right _ he)) hm hstart

/-- **The two address types never agree.**  Take a session that waits for a
request, the CONNECT to `addr` with `ATYP = 1` and the CONNECT to the text of
`addr` with `ATYP = 3`, any resolver that answers `addr`, any outcome of the
connect and anything that happens afterwards on either side.  The first session
never connects to anything, the second to `addr` at the port of the request as
soon as the resolver has answered, and at no point have the two connected to the
same targets and written the same replies. -/
theorem address_types_disagree {addr : InAddr} {hi lo : UInt8} {choice₁ choice₂ : Choice}
    {es₁ es₂ : List Event} {t₁ t₂ : Session} (hs : Reachable P s) (ha : AwaitsRequest s)
    (h₁ : Run (Step P) s (delivery (P.encrypt (ipv4Request addr hi lo)) choice₁ ++ es₁) t₁)
    (hres : ∀ e ∈ delivery (P.encrypt (domainRequest (inetNtop addr) hi lo)) choice₂ ++ es₂,
      ResolverReturns addr e)
    (h₂ : Run (Step P) s
      (delivery (P.encrypt (domainRequest (inetNtop addr) hi lo)) choice₂ ++ es₂) t₂) :
    t₁.connects = [] ∧
      (t₂.addrinfos ≠ 0 → t₂.connects = [(addr, UInt16.ofNat (portOf hi lo))]) ∧
      ¬ (t₁.connects = t₂.connects ∧ t₁.replies = t₂.replies) := by
  obtain ⟨hannounced, hconnects⟩ := ipv4_run hs ha h₁
  obtain ⟨m, hm, ht₂⟩ := domain_run hs ha hres h₂
  refine ⟨hconnects, fun hinfos => ?_, fun hagree => ?_⟩
  · rw [ht₂.connects_eq.2] at hinfos
    rw [ht₂.connects_eq.1]
    cases m with
    | stranded x | relay x | abandoned x => obtain rfl := hm; rfl
    | closed x =>
        cases x with
        | none => exact absurd rfl hinfos
        | some x => obtain rfl := hm; rfl
    | _ => exact absurd rfl hinfos
  · have hannounced₂ : Announced t₂ := by rwa [Announced, ← hagree.2]
    refine ht₂.connects_of_announced ?_ hannounced₂ (hagree.1.symm.trans hconnects)
    rintro rfl
    exact hm

/-- CONNECT to 127.0.0.1, port 80, in both ways, up to the answer of the
resolver. -/
theorem address_types_disagree_localhost : ∃ s t₁ t₂, Reachable Key.identity s ∧
    AwaitsRequest s ∧
    Run (Step Key.identity) s
      (delivery (Key.identity.encrypt (ipv4Request ⟨127, 0, 0, 1⟩ 0x00 0x50)) .later ++ []) t₁ ∧
    Run (Step Key.identity) s
      (delivery (Key.identity.encrypt
          (domainRequest (inetNtop ⟨127, 0, 0, 1⟩) 0x00 0x50)) .later ++
        [.dnsDone (inetNtop ⟨127, 0, 0, 1⟩) (.found ⟨.inet, ⟨127, 0, 0, 1⟩⟩) 0]) t₂ ∧
    t₁.connects = [] ∧ t₂.connects = [(⟨127, 0, 0, 1⟩, UInt16.ofNat (portOf 0x00 0x50))] ∧
    ¬ (t₁.connects = t₂.connects ∧ t₁.replies = t₂.replies) := by
  obtain ⟨c, hr, hc⟩ := reach_request Key.identity .later
  obtain ⟨c₁, ip₁, h₁, -⟩ :=
    run_ipv4Request (P := Key.identity) 0x00 0x50 0 [] hc ⟨127, 0, 0, 1⟩ [methodReply.toList]
  obtain ⟨c₂, ip₂, h₂, -⟩ :=
    run_domainRequest (P := Key.identity) _ 0x00 0x50 0 [] hc (.inetNtop ⟨127, 0, 0, 1⟩)
      [methodReply.toList]
  have hawaits : AwaitsRequest (.alone (some ⟨some 0, none, 0, []⟩) c [] []
      [methodReply.toList]) := ⟨c, rfl, hc.live, by rw [hc.callbacks]; rfl, hc.noRead⟩
  have hall := h₂.snoc (step_answer ⟨127, 0, 0, 1⟩ rfl)
  obtain ⟨hnone, htarget, hne⟩ := address_types_disagree ⟨_, hr⟩ hawaits
    (h₁.append (.nil _)) (by
      intro e he
      simp only [delivery, List.cons_append, List.nil_append, List.mem_cons, List.not_mem_nil,
        or_false] at he
      rcases he with rfl | rfl | rfl
      · trivial
      · rintro answer ⟨⟩
      · rintro answer ⟨⟩
        rfl) hall
  exact ⟨_, _, _, ⟨_, hr⟩, hawaits, h₁.append (.nil _), hall, hnone,
    htarget (by simp [Session.paired]), hne⟩

/-- The same two sessions side by side: what they have connected to and what
they have replied. -/
theorem address_types_localhost : ∃ t₁ t₂,
    Run (Step Key.identity) .accepted
      (delivery (Key.identity.encrypt greetingMessage) .later ++
        delivery (Key.identity.encrypt (ipv4Request ⟨127, 0, 0, 1⟩ 0x00 0x50)) .later) t₁ ∧
    Run (Step Key.identity) .accepted
      (connectEvents Key.identity (inetNtop ⟨127, 0, 0, 1⟩) 0x00 0x50 ⟨127, 0, 0, 1⟩) t₂ ∧
    t₁.replies = [methodReply.toList, connectReply.toList] ∧ t₁.connects = [] ∧
    t₂.replies = [methodReply.toList, connectReply.toList] ∧
    t₂.connects = [(⟨127, 0, 0, 1⟩, UInt16.ofNat (portOf 0x00 0x50))] := by
  obtain ⟨c₁, ip, h₁, -⟩ := reach_ipv4 Key.identity 0x00 0x50 ⟨127, 0, 0, 1⟩
  obtain ⟨c₂, h₂, -⟩ := reach_joined Key.identity _ 0x00 0x50 (.inetNtop ⟨127, 0, 0, 1⟩)
    ⟨127, 0, 0, 1⟩
  exact ⟨_, _, h₁, h₂, rfl, rfl, rfl, rfl⟩

end LightSocks
