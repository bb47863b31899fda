import LightSocks.Server.Delivery

/-!
# What the client is told

The replies of the handshake come from three functions in two files.  Whatever
the order of events:

* `reply_grammar` — what is queued for the client is, decrypted, a prefix of the
  method reply, the CONNECT reply and the bytes of the remote host.
* `not_ipv4_of_guarded`, `guarded_of_not_ipv4` — the runs in which no `ATYP = 1` request is
  taken.
-/

namespace LightSocks

open Transition

variable {P : Key} {m : Mode} {s : Session}

/-! ## The reply grammar -/

theorem Shape.followsGrammar (h : Shape P m s) : FollowsGrammar P s := by
  cases h with
  | greeting _ hout =>
      exact followsGrammar_alone (m := []) (by rw [hout]; rfl) List.nil_prefix
  | ipv4 _ hout => exact followsGrammar_alone hout (List.prefix_refl _)
  | request _ hout | resolving _ hout | unresolved _ hout | orphaned _ hout =>
      exact followsGrammar_alone hout (List.prefix_append _ _)
  | stranded _ _ hout | abandoned _ _ hout =>
      exact followsGrammar_paired hout ((List.prefix_append _ _).trans (List.prefix_append _ _))
  | relay _ hr hout => exact followsGrammar_paired hout hr.replies_prefix
  | closedAlone _ _ hgrammar => exact hgrammar
  | closedPaired _ _ hgrammar => exact hgrammar

/-- **What the server sends follows the SOCKS5 reply grammar**, in every state a
session can reach. -/
theorem reply_grammar (h : Reachable P s) : FollowsGrammar P s := by
  obtain ⟨m, hm⟩ := h.shape
  exact hm.followsGrammar

/-- A session that has just been connected. -/
theorem reply_grammar_joined : ∃ s, Reachable Key.identity s ∧
    s.replies = [methodReply.toList, connectReply.toList] ∧ FollowsGrammar Key.identity s := by
  obtain ⟨c, hr, -⟩ := reach_joined Key.identity [0x61] 0x00 0x50 .example ⟨127, 0, 0, 1⟩
  exact ⟨_, ⟨_, hr⟩, rfl, reply_grammar ⟨_, hr⟩⟩

/-! ## Runs without an `ATYP = 1` request -/

/-- The condition: `handle_second` does not read an `ATYP = 1` request. -/
def NoIpv4 (P : Key) (s : Session) (e : Event) : Prop := kind P s e ≠ .takesIpv4

theorem not_ipv4_of_guarded {es : List Event}
    (hr : Run (Guarded (NoIpv4 P) (Step P)) .accepted es s) : ∃ m, m ≠ .ipv4 ∧ Shape P m s := by
  refine guarded_modes (I := fun m => m ≠ .ipv4) ?_ hr accepted_shape (by simp)
  rintro m s e m' - hC hmove hm rfl
  generalize hk : kind P s e = k at hmove
  cases hmove with
  | stay => exact hm rfl
  | tookIpv4 => exact hC hk
  | ignored => exact hm rfl

/-- The step that fails the condition leads into the `ATYP = 1` phase. -/
theorem ipv4_of_not_guarded {t : Session} {e : Event} (h : Shape P m s)
    (hn : ¬ NoIpv4 P s e) (hs : Step P s e t) : Shape P .ipv4 t := by
  obtain ⟨m', hmove, ht⟩ := hs.move h
  rw [not_not.1 hn] at hmove
  cases hmove
  exact ht

/-- There is no way out of the `ATYP = 1` phase. -/
theorem Move.from_ipv4 {m' : Mode} {k : Kind} (h : Move .ipv4 k m') : m' = .ipv4 := by
  cases h with
  | stay => rfl
  | ignored => rfl
  | closed h => simp at h
  | released h => simp at h

theorem stays_ipv4 {t : Session} {es : List Event} (hr : Run (Step P) s es t)
    (h : Shape P .ipv4 s) : Shape P .ipv4 t := by
  obtain ⟨m, rfl, ht⟩ := run_modes (I := fun m => m = .ipv4) (by
    rintro m k m' hmove rfl
    exact hmove.from_ipv4) hr h rfl
  exact ht

/-- A run that is not in the `ATYP = 1` phase has never been there. -/
theorem guarded_of_not_ipv4 {es : List Event} (hr : Run (Step P) .accepted es s)
    (hs : ¬ Shape P .ipv4 s) : Run (Guarded (NoIpv4 P) (Step P)) .accepted es s := by
  rcases hr.guarded_or_first (C := NoIpv4 P) with hg | ⟨_, _, _, u, v, -, hg, hn, hstep, hrest⟩
  · exact hg
  · obtain ⟨m, -, hu⟩ := not_ipv4_of_guarded hg
    exact absurd (stays_ipv4 hrest (ipv4_of_not_guarded hu hn hstep)) hs

/-! ## The CONNECT reply -/

/-- The CONNECT reply has been written. -/
def Announced (s : Session) : Prop := connectReply.toList ∈ s.replies

theorem not_announced {replies : List (List UInt8)} (h : replies = [methodReply.toList])
    (hs : s.replies = replies) : ¬ Announced s := by
  rw [Announced, hs, h]
  decide

end LightSocks
