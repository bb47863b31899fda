import LightSocks.Server.Flow
import LightSocks.Server.Ownership

/-!
# When success is announced

The CONNECT reply comes from two functions in two files, and the partner it stands for
is set in a third one, by the resolver.

* `SuccessSound` — the partner of a session whose client has been told success has reported
  CONNECTED, and what the client sends from then on goes to it.
* `AnnouncesEstablished` — what happens next announces only a connection that is established,
  and does not replace the partner of a session that has been announced.
* `success_announced` — the first holds in every state of a run of the server exactly when
  the second does at every step.
-/

namespace LightSocks

open Transition

variable {P : Key} {w w' : World} {a a' : Addr} {o o' : Occupant} {p q : BevPtr} {k : ℕ}
  {b : Bufferevent Callbacks} {s t : Session} {e : Event}

/-- The client of the session `k` has been told success. -/
def World.Announced (w : World) (k : ℕ) : Prop :=
  ∃ r ∈ w.replies, r.client = k ∧ r.bytes = connectReply.toList

/-- The partner of the context has reported CONNECTED. -/
def PartnerConnected (w : World) (o : Occupant) : Prop :=
  ∃ q b, o.context.partner = some q ∧ w.bevs[q]? = some b ∧ b.reported.connected = true

/-- Whoever has been told success, and has not been torn down, has such a partner. -/
def AnnouncedConnected (w : World) : Prop :=
  ∀ a o, w.contexts a = some o → w.Announced o.session → PartnerConnected w o

/-- An announced connection is there: the partner has reported CONNECTED, and what
`handle_last` takes from the client goes to it, decrypted. -/
structure SuccessSound (P : Key) (w : World) : Prop where
  partner : AnnouncedConnected w
  relayed : ∀ a o p (b : Bufferevent Callbacks) choice w', w.contexts a = some o →
    w.Announced o.session → o.context.self = some p → w.bevs[p]? = some b →
    b.callbacks.readcb = some .handleLast → WorldStep P w (.event (.readCb p choice)) w' →
      ∃ q c, o.context.partner = some q ∧ w.bevs[q]? = some c ∧
        w'.bevs = (w.bevs.set p b.takeRead.drained).set q (c.queue (P.decrypt b.input.pending))

/-- What a callback may do with the context `o` it finds at `a`. -/
structure EstablishedFirst (P : Key) (w : World) (a : Addr) (o : Occupant) (e : Event) :
    Prop where
  /-- `handle_second` takes an `ATYP = 1` request only once the partner has reported
  CONNECTED. -/
  ipv4 : kind P (w.view a e.lookups) e = .takesIpv4 → PartnerConnected w o
  /-- `dns_cb` attaches no partner to a session that has been announced. -/
  attaches : ∀ addr, kind P (w.view a e.lookups) e = .getsAddress addr → e.connectResult = 0 →
    ¬ w.Announced o.session
  /-- The bufferevent that `remote_event_cb` announces is the partner, unless the partner
  has reported CONNECTED. -/
  connected : ∀ p, e = .eventCb p → ReportsConnected (w.view a e.lookups) p →
    o.context.partner = some p ∨ PartnerConnected w o

/-- The condition, for the callback that runs next and the context it finds. -/
def AnnouncesEstablished (P : Key) (w : World) (e : WorldEvent) : Prop :=
  ∀ a e' o, w.callback e = some (a, e') → w.contexts a = some o → EstablishedFirst P w a o e'

/-! ## What has been said, and to whom -/

/-- Who has been told success after a callback. -/
theorem World.absorb_announced {session : ℕ} {lookup : Lookup} :
    (w.absorb a session lookup t).Announced k ↔ w.Announced k ∨
      ∃ o, w.contexts a = some o ∧ o.session = k ∧ connectReply.toList ∈ t.replies := by
  constructor
  · rintro ⟨r, hr, hclient, hbytes⟩
    rcases List.mem_append.1 hr with hr | hr
    · exact .inl ⟨r, hr, hclient, hbytes⟩
    · obtain ⟨o, ho, hr⟩ := List.mem_flatMap.1 hr
      obtain ⟨bytes, hmem, rfl⟩ := List.mem_map.1 hr
      exact .inr ⟨o, Option.mem_toList.1 ho, hclient, hbytes ▸ hmem⟩
  · rintro (⟨r, hr, hsaid⟩ | ⟨o, ho, rfl, hmem⟩)
    · exact ⟨r, List.mem_append_left _ hr, hsaid⟩
    · exact ⟨⟨o.session, session, _⟩, List.mem_append_right _ (List.mem_flatMap.2
        ⟨o, Option.mem_toList.2 ho, List.mem_map_of_mem hmem⟩), rfl, rfl⟩

/-- What has been said stays said. -/
theorem WorldStep.announced {e : WorldEvent} (h : WorldStep P w e w') (hk : w.Announced k) :
    w'.Announced k := by
  cases h.cases with
  | accept free => exact hk
  | event bev origin_eq step => exact World.absorb_announced.2 (.inl hk)
  | answer mem step =>
      exact World.absorb_announced (w := { w with dns := _ }).2 (.inl hk)

/-- What holds of the sessions in every state that can be reached: their partners are live,
nobody has been told anything before connecting, and no session has two contexts. -/
structure Numbered (w : World) : Prop where
  consistent : Consistent w
  partners : PartnersLive w
  heard : ∀ r ∈ w.replies, r.client < w.accepted
  once : ∀ a a' o o', w.contexts a = some o → w.contexts a' = some o' → o.session = o'.session →
    a = a'

theorem Numbered.start : Numbered World.start := by
  refine ⟨Partnered.start.consistent, Partnered.start.partners, ?_, ?_⟩
  · intro r hr
    cases hr
  · intro a a' o o' ho
    cases ho

theorem Numbered.not_announced (hw : Numbered w) : ¬ w.Announced w.accepted := by
  rintro ⟨r, hr, hclient, -⟩
  exact (hw.heard r hr).ne hclient

theorem WorldStep.numbered {e : WorldEvent} (h : WorldStep P w e w') (hw : Numbered w) :
    Numbered w' := by
  refine ⟨h.consistent hw.consistent, h.partnersLive hw.consistent hw.partners, ?_, ?_⟩
  · intro r hr
    rcases h.session_lt hw.consistent with ⟨a, -, -, rfl⟩ | ⟨k, -, -, haccepted, hreplies⟩
    · exact (hw.heard r hr).trans (Nat.lt_succ_self _)
    · rw [haccepted]
      exact (hreplies r hr).elim (hw.heard r) id
  · intro a a' o o' ho ho' hsame
    cases h.callbackCase hw.consistent with
    | accept free =>
        rcases World.accepting_contexts ho with ho | ⟨ha, rfl⟩ <;>
          rcases World.accepting_contexts ho' with ho' | ⟨ha', rfl⟩
        · exact hw.once a a' o o' ho ho' hsame
        · exact absurd hsame (hw.consistent.occupant_lt ho).ne
        · exact absurd hsame (hw.consistent.occupant_lt ho').ne'
        · exact ha.trans ha'.symm
    | callback runs consistent called =>
        obtain ⟨o₁, ho₁, hsession⟩ := World.absorb_session ho
        obtain ⟨o₂, ho₂, hsession'⟩ := World.absorb_session ho'
        exact hw.once a a' o₁ o₂ ho₁ ho₂ (hsession.trans (hsame.trans hsession'.symm))

/-! ## Who has reported CONNECTED -/

/-- **Who has reported CONNECTED after an event**: whoever had before it, and the bufferevent
whose callback is told. -/
theorem Step.reported_connected (h : Step P s e t) (hb : s.bevs[p]? = some b) :
    ∃ b', t.bevs[p]? = some b' ∧ (b'.reported.connected = true ↔ b.reported.connected = true ∨
      e = .eventCb p ∧ b.nextEvent = some { connected := true }) := by
  obtain ⟨b', hb', htold⟩ := h.reported hb
  refine ⟨b', hb', ?_⟩
  by_cases he : e = .eventCb p
  · subst he
    obtain ⟨b₁, what, hb₁, hwhat, -⟩ := Session.fire_eventCb h
    cases hb.symm.trans hb₁
    rw [htold.told what rfl hwhat]
    rcases (Bufferevent.nextEvent_cases hwhat).2 with ⟨-, rfl⟩ | ⟨hno, rfl, -⟩
    · simp [What.merge, hwhat]
    · have hne : b.nextEvent ≠ some { connected := true } := by
        rw [hwhat]
        intro heq
        cases hno.symm.trans (congrArg What.connected (Option.some.inj heq))
      simp [What.merge, hno, hne]
  · rw [htold.others he]
    simp [he]

section Called

variable {lookup : Lookup} {session : ℕ}

/-- A partner that has reported CONNECTED before a callback has still done so after it. -/
theorem Called.partnerConnected (h : Called P w a lookup e t) (ho : PartnerConnected w o)
    (hpartner : o'.context.partner = o.context.partner) :
    PartnerConnected (w.absorb a session lookup t) o' := by
  obtain ⟨q, b, hq, hb, hconn⟩ := ho
  obtain ⟨b', hb', hiff⟩ := h.step.reported_connected hb
  exact ⟨q, b', hpartner.trans hq, hb', hiff.2 (.inl hconn)⟩

/-- A partner that has reported CONNECTED after a callback had done so before it, or has done so
just now. -/
theorem Called.of_partnerConnected (h : Called P w a lookup e t) (hw : Consistent w)
    (hpartners : PartnersLive w) (ho : w.contexts a' = some o)
    (hpartner : o'.context.partner = o.context.partner)
    (ho' : PartnerConnected (w.absorb a session lookup t) o') :
    PartnerConnected w o ∨ ∃ q, o.context.partner = some q ∧ e = .eventCb q := by
  obtain ⟨q, b', hq, hb', hconn⟩ := ho'
  have hold : o.context.partner = some q := hpartner.symm.trans hq
  have hlt := hpartners.lt hw ho hold
  have hb : w.bevs[q]? = some w.bevs[q] := List.getElem?_eq_getElem hlt
  obtain ⟨b₁, hb₁, hiff⟩ := h.step.reported_connected (p := q) (by exact hb)
  cases hb'.symm.trans hb₁
  rcases hiff.1 hconn with hbefore | ⟨he, -⟩
  · exact .inl ⟨q, _, hold, hb, hbefore⟩
  · exact .inr ⟨q, hold, he⟩

/-- A callback that meets the condition leaves the context it finds with a partner that has
reported CONNECTED, if its client has been told success. -/
theorem Called.sound (h : Called P w a lookup e t) (ho : w.contexts a = some o)
    (hsound : w.Announced o.session → PartnerConnected w o) (hC : EstablishedFirst P w a o e)
    {context : Socks5ctx} (hcontext : t.context = some context)
    (hsaid : w.Announced o.session ∨ connectReply.toList ∈ t.replies) :
    PartnerConnected (w.absorb a session lookup t) { o with context } := by
  have hview : (w.view a e.lookups).context = some o.context := congrArg (Option.map _) ho
  have hgreeting : connectReply.toList ∉ [methodReply.toList] := by decide
  cases h.aftermath with
  | quiet ends connected kind faces context' blank =>
      cases hcontext.symm.trans (context'.trans hview)
      rw [blank.replies] at hsaid
      exact h.partnerConnected (hsound (hsaid.resolve_right List.not_mem_nil)) rfl
  | greeted bev live readcb faces context' dns connects replies =>
      cases hcontext.symm.trans (context'.trans hview)
      rw [replies] at hsaid
      exact h.partnerConnected (hsound (hsaid.resolve_right hgreeting)) rfl
  | tookIpv4 bev live readcb kind faces context context' dns connects replies =>
      cases hview.symm.trans context
      cases hcontext.symm.trans context'
      exact h.partnerConnected (hC.ipv4 kind) rfl
  | asked bev live readcb kind faces context context' connects replies =>
      cases hview.symm.trans context
      cases hcontext.symm.trans context'
      rw [replies] at hsaid
      exact h.partnerConnected (hsound (hsaid.resolve_right List.not_mem_nil)) rfl
  | answeredAtOnce bev live readcb kind faces context context' dns connects replies =>
      cases hview.symm.trans context
      cases hcontext.symm.trans context'
      rw [replies] at hsaid
      have hannounced := hsaid.resolve_right List.not_mem_nil
      exact h.partnerConnected (hsound hannounced)
        (if_neg fun hre => hC.attaches _ kind hre hannounced)
  | answered kind faces context context' dns connects replies =>
      cases hview.symm.trans context
      cases hcontext.symm.trans context'
      rw [replies] at hsaid
      have hannounced := hsaid.resolve_right List.not_mem_nil
      exact h.partnerConnected (hsound hannounced)
        (if_neg fun hre => hC.attaches _ kind hre hannounced)
  | connected reports faces context' dns connects replies =>
      cases hcontext.symm.trans (context'.trans hview)
      rcases hC.connected _ rfl reports with hp | hconn
      · obtain ⟨b, hb, hw, -⟩ := reports
        obtain ⟨b', hb', hiff⟩ := h.step.reported_connected hb
        exact ⟨_, b', hp, hb', hiff.2 (.inr ⟨rfl, hw⟩)⟩
      · exact h.partnerConnected hconn rfl
  | released ends context context' bevs live second_eq blank => cases hcontext.symm.trans context'

/-- The lookups that are outstanding do not matter for that. -/
theorem establishedFirst_dns {dns : List Lookup} :
    EstablishedFirst P { w with dns } a o e ↔ EstablishedFirst P w a o e :=
  ⟨fun h => ⟨h.ipv4, h.attaches, h.connected⟩, fun h => ⟨h.ipv4, h.attaches, h.connected⟩⟩

/-- A callback meets the condition, or fails it in one of three ways. -/
theorem EstablishedFirst.or_fails (P : Key) (w : World) (a : Addr) (o : Occupant) (e : Event) :
    EstablishedFirst P w a o e ∨
      kind P (w.view a e.lookups) e = .takesIpv4 ∧ ¬ PartnerConnected w o ∨
      (∃ addr, kind P (w.view a e.lookups) e = .getsAddress addr ∧ e.connectResult = 0 ∧
        w.Announced o.session) ∨
      ∃ p, e = .eventCb p ∧ ReportsConnected (w.view a e.lookups) p ∧
        o.context.partner ≠ some p ∧ ¬ PartnerConnected w o := by
  by_contra h
  rw [not_or, not_or, not_or] at h
  obtain ⟨hn, hipv4, hattaches, hconnected⟩ := h
  refine hn ⟨fun hkind => ?_, fun addr hkind hre hannounced => ?_, fun p he hreports => ?_⟩
  · by_contra hnot
    exact hipv4 ⟨hkind, hnot⟩
  · exact hattaches ⟨addr, hkind, hre, hannounced⟩
  · by_contra hnot
    exact hconnected ⟨p, he, hreports, not_or.1 hnot⟩

/-- A callback that fails the condition leaves a client that has been told success without such
a partner. -/
theorem Called.not_sound (h : Called P w a lookup e t) (hw : Consistent w)
    (hpartners : PartnersLive w) (ho : w.contexts a = some o)
    (hn : ¬ EstablishedFirst P w a o e) : ∃ context, t.context = some context ∧
      (w.Announced o.session ∨ connectReply.toList ∈ t.replies) ∧
      ¬ PartnerConnected (w.absorb a session lookup t) { o with context } := by
  have hview : (w.view a e.lookups).context = some o.context := congrArg (Option.map _) ho
  rcases (EstablishedFirst.or_fails P w a o e).resolve_left hn with
    ⟨hkind, hnot⟩ | ⟨addr, hkind, hre, hannounced⟩ | ⟨p, rfl, hreports, hother, hnot⟩
  · -- an `ATYP = 1` request
    obtain ⟨p, choice, ctx, ctx', rfl, hctx, hctx', hpartner, hreplies⟩ :=
      h.aftermath.of_takesIpv4 hkind
    cases hview.symm.trans hctx
    refine ⟨ctx', hctx', .inr (by rw [hreplies]; exact List.mem_cons_self), fun hafter => ?_⟩
    rcases h.of_partnerConnected hw hpartners ho hpartner hafter with hbefore | ⟨q, -, he⟩
    · exact hnot hbefore
    · cases he
  · -- another partner, which cannot have reported anything yet
    cases h.aftermath.pointers with
    | kept kind _ _ _ _ => exact absurd hkind (kind addr)
    | released event _ _ _ _ _ =>
        subst event
        rcases kind_eventCb_cases P (w.view a (Event.eventCb _).lookups) _ with h | h <;>
          cases h.symm.trans hkind
    | attached _ hctx hctx' _ partner _ _ =>
        refine ⟨_, hctx', .inl hannounced, ?_⟩
        rintro ⟨q, b, hq, hb, hconn⟩
        have hnew : some w.bevs.length = some q := ((if_pos hre).symm.trans partner.symm).trans hq
        cases hnew
        rw [h.step.reported_new (le_refl _) hb] at hconn
        cases hconn
  · -- the announcement of a bufferevent that is not the partner
    obtain ⟨hctx', hreplies⟩ := h.aftermath.of_reportsConnected hreports (by
      intro ctx hctx
      cases hview.symm.trans hctx
      obtain ⟨p', hself, -⟩ := hw.self a o ho
      rw [hself]
      exact Option.some_ne_none p')
    refine ⟨o.context, hctx'.trans hview, .inr (by rw [hreplies]; exact List.mem_cons_self),
      fun hafter => ?_⟩
    rcases h.of_partnerConnected hw hpartners ho rfl hafter with hbefore | ⟨q, hq, he⟩
    · exact hnot hbefore
    · cases he
      exact hother hq

end Called

/-! ## Step by step -/

/-- **A step that meets the condition announces only what is established.** -/
theorem WorldStep.announcedConnected {e : WorldEvent} (h : WorldStep P w e w') (hw : Numbered w)
    (hsound : AnnouncedConnected w) (hC : AnnouncesEstablished P w e) : AnnouncedConnected w' := by
  cases h.callbackCase hw.consistent with
  | accept free =>
      intro a' o' ho' hannounced
      rcases World.accepting_contexts ho' with ho | ⟨-, rfl⟩
      · obtain ⟨q, b, hq, hb, hconn⟩ := hsound a' o' ho hannounced
        exact ⟨q, b, hq,
          (List.getElem?_append_left (List.getElem?_eq_some_iff.1 hb).1).trans hb, hconn⟩
      · exact absurd hannounced hw.not_announced
  | callback runs consistent called =>
      intro a' o' ho' hannounced
      rcases World.absorb_contexts ho' with ⟨hne, ho⟩ | ⟨rfl, o, context, ho, hcontext, rfl⟩
      · -- another session, which has not been told anything
        rcases World.absorb_announced.1 hannounced with hbefore | ⟨o, ho₁, hsame, -⟩
        · exact called.partnerConnected (hsound a' o' ho hbefore) rfl
        · exact absurd (hw.once _ _ _ _ ho ho₁ hsame.symm) hne
      · refine called.sound ho (hsound a' o ho) (establishedFirst_dns.2 (hC _ _ o runs ho))
          hcontext ?_
        rcases World.absorb_announced.1 hannounced with hbefore | ⟨-, -, -, hsaid⟩
        · exact .inl hbefore
        · exact .inr hsaid

/-- **A step that fails the condition announces what is not established.** -/
theorem WorldStep.not_announcedConnected {e : WorldEvent} (h : WorldStep P w e w')
    (hw : Numbered w) (hn : ¬ AnnouncesEstablished P w e) : ¬ AnnouncedConnected w' := by
  simp only [AnnouncesEstablished, not_forall] at hn
  obtain ⟨a, e', o, hruns, ho, hn⟩ := hn
  cases h.callbackCase hw.consistent with
  | accept free => cases hruns
  | @callback e a₁ e₁ session lookup dns t runs consistent called =>
      cases hruns.symm.trans runs
      obtain ⟨context, hcontext, hsaid, hnot⟩ :=
        called.not_sound consistent hw.partners ho (mt establishedFirst_dns.1 hn)
      intro hafter
      refine hnot (hafter a _ (World.absorb_contexts_self ho hcontext)
        (World.absorb_announced.2 ?_))
      rcases hsaid with hbefore | hsaid
      · exact .inl hbefore
      · exact .inr ⟨o, ho, rfl, hsaid⟩

/-- With a partner that has reported CONNECTED, `handle_last` throws nothing away. -/
theorem Numbered.relayed (hw : Numbered w) {choice : Choice} (ho : w.contexts a = some o)
    (hself : o.context.self = some p) (hb : w.bevs[p]? = some b)
    (hcb : b.callbacks.readcb = some .handleLast) (hconn : PartnerConnected w o)
    (h : WorldStep P w (.event (.readCb p choice)) w') :
    ∃ q c, o.context.partner = some q ∧ w.bevs[q]? = some c ∧
      w'.bevs = (w.bevs.set p b.takeRead.drained).set q (c.queue (P.decrypt b.input.pending)) := by
  obtain ⟨q, c, hpartner, hc, -⟩ := hconn
  refine ⟨q, c, hpartner, hc, ?_⟩
  obtain ⟨⟨c', hc', hlive⟩, l, target, hremote⟩ := hw.partners a o q ho hpartner
  cases hc.symm.trans hc'
  obtain ⟨p', hself', hclient⟩ := hw.consistent.self a o ho
  cases hself.symm.trans hself'
  have hpq : p ≠ q := by
    rintro rfl
    cases hclient.symm.trans hremote
  cases h.cases with
  | event hbev horigin hstep =>
      cases hbev
      cases hclient.symm.trans horigin
      obtain ⟨b', hb', hdue, hcall⟩ := Session.fire_readCb hstep
      cases hb.symm.trans hb'
      have hl : b.live = true := by
        simp only [Bufferevent.readDue, Bool.and_eq_true] at hdue
        exact hdue.1.1
      rw [Session.callRead, hcb] at hcall
      cases harg : b.callbacks.cbarg with
      | none =>
          rw [harg] at hcall
          cases hcall
      | some _ =>
          have hview : ((w.view a []).setBev p b.takeRead).context = some o.context :=
            congrArg (Option.map _) ho
          have hp : ((w.view a []).setBev p b.takeRead).bevs[p]? = some b.takeRead :=
            List.getElem?_set_self (List.getElem?_eq_some_iff.1 hb).1
          have hq : ((w.view a []).setBev p b.takeRead).bevs[q]? = some c :=
            (List.getElem?_set_ne hpq).trans hc
          have hrelay := handleLast_relay (P := P) hview hself hpartner hpq hp hq hl hlive
          rw [harg] at hcall
          cases hcall.trans hrelay
          exact congrArg (fun h : Heap Callbacks => h.set q _) (List.set_set ..)

/-! ## Over a whole run -/

theorem numbered_of_run {es : List WorldEvent} (h : Run (WorldStep P) .start es w) : Numbered w :=
  h.invariant (fun _ _ _ hw hs => hs.numbered hw) .start

theorem announcedConnected_of_guarded {es : List WorldEvent}
    (h : Run (Guarded (AnnouncesEstablished P) (WorldStep P)) .start es w) :
    Numbered w ∧ AnnouncedConnected w := by
  refine h.invariant (I := fun w => Numbered w ∧ AnnouncedConnected w)
    (fun _ _ _ hw hs => ⟨hs.2.numbered hw.1, hs.2.announcedConnected hw.1 hw.2 hs.1⟩)
    ⟨Numbered.start, ?_⟩
  intro a o ho
  cases ho

/-- **When success is announced for an established tunnel.**  For any number of sessions, in any
order of their events and with any reuse of addresses, exactly when every callback announces
only what is established. -/
theorem success_announced {es : List WorldEvent} (h : Run (WorldStep P) .start es w) :
    Throughout (WorldStep P) .start es (SuccessSound P) ↔
      Run (Guarded (AnnouncesEstablished P) (WorldStep P)) .start es w := by
  refine h.throughout_iff (worldStep_deterministic P) ?_ ?_
  · intro es' u hu
    obtain ⟨hw, hsound⟩ := announcedConnected_of_guarded hu
    exact ⟨hsound, fun a o p b choice w' ho hannounced hself hb hcb hs =>
      hw.relayed ho hself hb hcb (hsound a o ho hannounced) hs⟩
  · intro es' u e v hu hn hs hsafe
    exact hs.not_announcedConnected (announcedConnected_of_guarded hu).1 hn hsafe.partner

/-! ## A client that is connected, and one that is not -/

/-- As long as nobody has been told success, nothing has been announced too early. -/
theorem guarded_of_not_announced {es : List WorldEvent} (h : Run (WorldStep P) .start es w)
    (hw : ∀ k, ¬ w.Announced k) :
    Run (Guarded (AnnouncesEstablished P) (WorldStep P)) .start es w := by
  rcases h.guarded_or_first (C := AnnouncesEstablished P) with
    hg | ⟨es₁, e, es₂, u, v, rfl, hg, hn, hstep, hrest⟩
  · exact hg
  · have hv := hstep.not_announcedConnected (announcedConnected_of_guarded hg).1 hn
    simp only [AnnouncedConnected, not_forall] at hv
    obtain ⟨a, o, -, hannounced, -⟩ := hv
    exact absurd (hrest.invariant (I := fun w => w.Announced o.session)
      (fun _ _ _ hsaid hs => hs.announced hsaid) hannounced) (hw _)

/-- The remote of a client that has asked for a host name reports CONNECTED. -/
theorem run_joined {addr : InAddr} {lookup : Lookup} {c : Bufferevent Callbacks}
    (hw : AnsweredWorld addr 0 lookup c w) : ∃ w',
      Run (Guarded (AnnouncesEstablished P) (WorldStep P)) w
        [.event (.socket 1 .connected), .event (.eventCb 1)] w' ∧ w'.Announced 0 := by
  obtain ⟨o, ho, hsession, hself, hpartner⟩ := hw.context
  rw [if_pos rfl] at hpartner
  have horigin : w.origins[1]? =
      some ⟨0, .remote lookup (addr, UInt16.ofNat lookup.port)⟩ := by rw [hw.origins]; rfl
  have hb₀ : w.bevs[0]? = some c := by rw [hw.bevs]; rfl
  have hb₁ : w.bevs[1]? = some (newRemote 0) := by rw [hw.bevs]; rfl
  have hmoved := step_socket (P := P) hb₁ horigin (e := .connected) ⟨rfl, rfl⟩
  let v : World := { w with bevs := w.bevs.set 1 ((newRemote 0).socket .connected) }
  have hv₁ : (v.view 0 []).bevs[1]? = some ((newRemote 0).socket .connected) :=
    List.getElem?_set_self (List.getElem?_eq_some_iff.1 hb₁).1
  have hctx : (v.view 0 []).context = some o.context := congrArg (Option.map _) ho
  have hdue : ((newRemote 0).socket .connected).nextEvent = some { connected := true } := rfl
  have hclient : ((v.view 0 []).setBev 1 joinedRemote).bevs[0]? = some c :=
    (List.getElem?_set_ne (by decide)).trans ((List.getElem?_set_ne (by decide)).trans hb₀)
  have hsaid := remoteEventCb_connected (P := P) (q := 1) (w := { connected := true }) rfl
    (by exact hctx) hself hclient hw.idle.live
  have hreplied : Step P (v.view 0 []) (.eventCb 1) _ := .eventCb hv₁ hdue hsaid
  have hstep := WorldStep.event (w := v) rfl horigin hreplied
  refine ⟨_, .cons ⟨?_, hmoved⟩ (.single ⟨?_, hstep⟩), World.absorb_announced.2 (.inr
    ⟨o, ho, hsession, List.mem_append_right _ List.mem_cons_self⟩)⟩
  · intro a e o hruns _
    obtain ⟨rfl, -⟩ := World.callback_event hruns
    exact ⟨fun hkind => (by cases hkind), fun addr hkind => (by cases hkind),
      fun p he => (by cases he)⟩
  · intro a e o₁ hruns ho₁
    obtain ⟨rfl, q, origin, hbev, horigin', rfl⟩ := World.callback_event hruns
    cases hbev
    cases horigin.symm.trans horigin'
    cases ho.symm.trans ho₁
    have hkind := kind_eventCb_cases P (v.view 0 (Event.eventCb 1).lookups) 1
    refine ⟨fun h4 => ?_, fun addr haddr => ?_, fun p he _ => ?_⟩
    · rcases hkind with h | h <;> cases h.symm.trans h4
    · rcases hkind with h | h <;> cases h.symm.trans haddr
    · cases he
      exact .inl hpartner

/-- A client that asks for a host name and is connected. -/
theorem success_announced_joined : ∃ w,
    Run (WorldStep Key.identity) .start (requestEvents Key.identity [0x61] 0x00 0x50 ++
      [.answer (requestedLookup [0x61] 0x00 0x50) (.found ⟨.inet, ⟨127, 0, 0, 1⟩⟩) 0] ++
      [.event (.socket 1 .connected), .event (.eventCb 1)]) w ∧ w.Announced 0 ∧
    Throughout (WorldStep Key.identity) .start (requestEvents Key.identity [0x61] 0x00 0x50 ++
      [.answer (requestedLookup [0x61] 0x00 0x50) (.found ⟨.inet, ⟨127, 0, 0, 1⟩⟩) 0] ++
      [.event (.socket 1 .connected), .event (.eventCb 1)]) (SuccessSound Key.identity) := by
  obtain ⟨c, w, hr, hw⟩ := run_answered Key.identity [0x61] 0x00 0x50 .example ⟨127, 0, 0, 1⟩ 0
  have hsilent : ∀ k, ¬ w.Announced k := by
    rintro k ⟨r, hr, -, hbytes⟩
    rw [hw.replies] at hr
    obtain rfl := List.mem_singleton.1 hr
    exact absurd hbytes (by decide)
  obtain ⟨w', hjoined, hannounced⟩ := run_joined (P := Key.identity) hw
  have hall := (guarded_of_not_announced hr hsilent).append hjoined
  exact ⟨w', hall.of_guarded, hannounced, (success_announced hall.of_guarded).2 hall⟩

/-- The events of a client that asks for an address. -/
def ipv4Events (P : Key) (addr : InAddr) (hi lo : UInt8) : List WorldEvent :=
  .accept 0 :: (delivery (P.encrypt greetingMessage) .later ++
    delivery (P.encrypt (ipv4Request addr hi lo)) .later).map .event

theorem run_ipv4Events (P : Key) (addr : InAddr) (hi lo : UInt8) : ∃ c ip,
    Run (WorldStep P) .start (ipv4Events P addr hi lo)
      (.alone 0 (some ⟨some 0, none, portOf hi lo, ip⟩) c []
        [⟨0, 0, methodReply.toList⟩, ⟨0, 0, connectReply.toList⟩]) := by
  obtain ⟨c, hr, hc⟩ := run_greeted_world P
  obtain ⟨c', ip, hr', -⟩ := run_ipv4Request (P := P) hi lo 0 [] hc addr []
  refine ⟨c', ip, ?_⟩
  rw [ipv4Events, List.map_append]
  exact hr.append (run_alone 0 _ _ rfl hr')

/-- A client that asks for an address is told success at once, with no remote
host in sight. -/
theorem success_announced_ipv4 : ∃ w,
    Run (WorldStep Key.identity) .start (ipv4Events Key.identity ⟨127, 0, 0, 1⟩ 0x00 0x50) w ∧
    w.Announced 0 ∧ (∃ o, w.contexts 0 = some o ∧ o.session = 0 ∧ o.context.partner = none) ∧
    ¬ SuccessSound Key.identity w := by
  obtain ⟨c, ip, hr⟩ := run_ipv4Events Key.identity ⟨127, 0, 0, 1⟩ 0x00 0x50
  have hannounced : (World.alone 0 (some ⟨some 0, none, portOf 0x00 0x50, ip⟩) c []
      [⟨0, 0, methodReply.toList⟩, ⟨0, 0, connectReply.toList⟩]).Announced 0 :=
    ⟨⟨0, 0, connectReply.toList⟩, List.mem_cons_of_mem _ List.mem_cons_self, rfl, rfl⟩
  refine ⟨_, hr, hannounced, ⟨_, World.alone_contexts .., rfl, rfl⟩, fun hsound => ?_⟩
  obtain ⟨q, b, hpartner, -⟩ := hsound.partner 0 _ (World.alone_contexts ..) hannounced
  cases hpartner

end LightSocks
