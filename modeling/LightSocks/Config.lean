import LightSocks.Base64
import LightSocks.Cipher
import LightSocks.Lib.FirstSeen

/-!
# Keys and their configuration

The server generates its key with `Util::genPassword`; both programs install the
configured key with their `setConfig`.  The generator draws bytes at random and
keeps those it has not kept before.  The loaders copy whatever the key decodes to
over the table.

* `genLoop_cases` — the loop draws on until every byte value has been drawn, and
  then holds them in the order of their first occurrence.
* `generated_key` — a generated key installs one and the same permutation at both
  ends.
* `loadTable_eq`, `loadTable_error` — what the loaders do to the table.
* `configured_key_iff` — which configured keys leave a usable table behind.
-/

namespace LightSocks

open Memory Draws

/-! ## Generating a key -/

namespace Util

/-- `for (j = 0; j < index; j++) if (num == pwd[j]) { flag = false; break; }`,
from `j` on, with `n` more entries to compare with: the `flag`. -/
def flagLoop (pwd : Table) (num : UInt8) : ℕ → ℕ → Except Fault Bool
  | _, 0 => .ok true
  | j, n + 1 => do
      let entry ← fetch .outOfBounds pwd j
      if num = entry then return false
      flagLoop pwd num (j + 1) n

/-- The body of the `while` loop, for the draw `num`. -/
def genStep (num : UInt8) (pwd : Table) (index : ℕ) : Except Fault (Table × ℕ) := do
  let flag ← flagLoop pwd num 0 index
  if flag then
    let pwd ← store .outOfBounds pwd index num
    return (pwd, index + 1)
  else return (pwd, index)

/-- `while (true)`: `k` is the number of draws so far.  `none` when the loop is
still running after `fuel` more. -/
def genLoop (dis : ℕ → UInt8) : ℕ → ℕ → Table → ℕ → Except Fault (Option Table)
  | 0, _, _, _ => .ok none
  | fuel + 1, k, pwd, index => do
      let (pwd, index) ← genStep (dis k) pwd index
      if index = 256 then return some pwd
      genLoop dis fuel (k + 1) pwd index

/-- `Util::genPassword`, given the draws, or `none` when it is still drawing after
`n` of them. -/
def genPassword (dis : ℕ → UInt8) (n : ℕ) : Except Fault (Option (List UInt8)) := do
  let pwd ← genLoop dis n 0 (Vector.replicate 256 0) 0
  return pwd.map fun pwd => base64Encode pwd.toList

variable {dis : ℕ → UInt8} {k index : ℕ} {pwd : Table}

/-- The comparison loop tells whether the draw is new. -/
theorem flagLoop_eq (pwd : Table) (num : UInt8) {j n : ℕ} (h : j + n ≤ 256) :
    flagLoop pwd num j n = .ok (decide (num ∉ (pwd.toList.drop j).take n)) := by
  induction n generalizing j with
  | zero => simp [flagLoop]
  | succ n ih =>
      have hj : j < 256 := by omega
      have hdrop : pwd.toList.drop j = pwd.get ⟨j, hj⟩ :: pwd.toList.drop (j + 1) := by
        rw [List.drop_eq_getElem_cons (by simpa using hj)]
        rfl
      rw [flagLoop, fetch_of_lt _ _ hj, ok_bind, hdrop, List.take_succ_cons]
      by_cases hnum : num = pwd.get ⟨j, hj⟩
      · rw [if_pos hnum]
        simp [hnum]
      · rw [if_neg hnum, ih (by omega)]
        simp [hnum]

/-- The first `index` entries are the values of the first `k` draws. -/
def Holds (dis : ℕ → UInt8) (k : ℕ) (pwd : Table) (index : ℕ) : Prop :=
  index = (firstSeen dis k).length ∧ pwd.toList.take index = firstSeen dis k

theorem card_byte : Fintype.card UInt8 = 256 := by
  rw [Fintype.card_congr (⟨UInt8.toFin, UInt8.ofFin, fun _ => rfl, fun _ => rfl⟩ : UInt8 ≃ Fin 256),
    Fintype.card_fin]

theorem Holds.le (h : Holds dis k pwd index) : index ≤ 256 := by
  rw [h.1, ← card_byte]
  exact length_firstSeen_le dis k

/-- **One draw.** -/
theorem genStep_eq (h : Holds dis k pwd index) (hlt : index < 256) :
    ∃ pwd' index', genStep (dis k) pwd index = .ok (pwd', index') ∧
      Holds dis (k + 1) pwd' index' := by
  rw [genStep, flagLoop_eq pwd (dis k) (by omega), List.drop_zero, h.2, ok_bind]
  by_cases hmem : dis k ∈ firstSeen dis k
  · refine ⟨pwd, index, by simp [hmem], ?_⟩
    unfold Holds
    rwa [firstSeen_of_mem hmem]
  · refine ⟨pwd.set index (dis k), index + 1, ?_, ?_, ?_⟩
    · simp [hmem, store_of_lt _ _ _ hlt]
    · rw [firstSeen_of_notMem hmem, List.length_append, ← h.1]
      rfl
    · rw [firstSeen_of_notMem hmem, ← h.2, Vector.toList_set, List.take_add_one,
        List.take_set_of_le le_rfl]
      simp [hlt]

/-- **What the loop comes to**: either the draws do not suffice, or it stops with
a full table at the draw that completes it. -/
theorem genLoop_cases (fuel : ℕ) (h : Holds dis k pwd index) (hlt : index < 256) :
    (genLoop dis fuel k pwd index = .ok none ∧ (firstSeen dis (k + fuel)).length < 256) ∨
      ∃ n t, k ≤ n ∧ n < k + fuel ∧ genLoop dis fuel k pwd index = .ok (some t) ∧
        (firstSeen dis n).length < 256 ∧ t.toList = firstSeen dis (n + 1) := by
  induction fuel generalizing k pwd index with
  | zero => exact .inl ⟨rfl, by rw [Nat.add_zero, ← h.1]; exact hlt⟩
  | succ fuel ih =>
      obtain ⟨pwd', index', hstep, h'⟩ := genStep_eq h hlt
      rw [genLoop, hstep, ok_bind]
      by_cases hfull : index' = 256
      · -- the draw has completed the table
        refine .inr ⟨k, pwd', le_rfl, by omega, by simp [hfull], by rw [← h.1]; exact hlt, ?_⟩
        rw [← h'.2, hfull, List.take_of_length_le (by simp)]
      · rcases ih h' (lt_of_le_of_ne h'.le hfull) with ⟨hloop, hlen⟩ |
          ⟨n, t, hn, hn', hloop, hlen, ht⟩
        · refine .inl ⟨by simp [hfull, hloop], ?_⟩
          rwa [show k + (fuel + 1) = k + 1 + fuel by omega]
        · exact .inr ⟨n, t, by omega, by omega, by simp [hfull, hloop], hlen, ht⟩

/-- **The generator.**  When every byte value is drawn at some time, the table is
returned at the draw that completes them, and not before. -/
theorem genPassword_eq (hall : ∀ b, ∃ k, dis k = b) : ∃ (n : ℕ) (t : Table),
    ((∀ b, ∃ k ≤ n, dis k = b) ∧ ¬ ∀ b, ∃ k < n, dis k = b) ∧ t.toList = firstSeen dis (n + 1) ∧
      ∀ m, genPassword dis m = .ok (if n < m then some (base64Encode t.toList) else none) := by
  obtain ⟨n, hn, hnot⟩ := exists_completing hall
  have hfull : ∀ j, (firstSeen dis j).length < 256 ↔ j ≤ n := by
    intro j
    have hiff : (firstSeen dis j).length = 256 ↔ ∀ b, ∃ k < j, dis k = b := by
      rw [← card_byte]
      exact length_firstSeen_eq_card
    have hle : (firstSeen dis j).length ≤ 256 := by
      rw [← card_byte]
      exact length_firstSeen_le dis j
    rw [lt_iff_le_and_ne, and_iff_right hle, ne_eq, hiff]
    constructor
    · intro hj
      by_contra hlt
      exact hj fun b => (hn b).imp fun k hk => ⟨by omega, hk.2⟩
    · intro hj h
      exact hnot fun b => (h b).imp fun k hk => ⟨by omega, hk.2⟩
  have hstart : Holds dis 0 (Vector.replicate 256 0) 0 := ⟨rfl, rfl⟩
  -- whatever completes the table does so at the draw `n`
  have hrun : ∀ m, (genLoop dis m 0 (Vector.replicate 256 0) 0 = .ok none ∧ m ≤ n) ∨
      ∃ t, genLoop dis m 0 (Vector.replicate 256 0) 0 = .ok (some t) ∧ n < m ∧
        t.toList = firstSeen dis (n + 1) := by
    intro m
    rcases genLoop_cases m hstart (by omega) with ⟨hloop, hlen⟩ | ⟨n', t, -, hn', hloop, hlen, ht⟩
    · rw [Nat.zero_add] at hlen
      exact .inl ⟨hloop, (hfull m).1 hlen⟩
    · have hle := (hfull n').1 hlen
      have hge : ¬ n' + 1 ≤ n := by
        rw [← hfull, ← ht]
        simp
      obtain rfl : n' = n := by omega
      exact .inr ⟨t, hloop, by omega, ht⟩
  obtain ⟨t, ht⟩ : ∃ t : Table, t.toList = firstSeen dis (n + 1) := by
    rcases hrun (n + 1) with ⟨-, h⟩ | ⟨t, -, -, ht⟩
    · omega
    · exact ⟨t, ht⟩
  refine ⟨n, t, ⟨fun b => (hn b).imp fun k hk => ⟨by omega, hk.2⟩, hnot⟩, ht, ?_⟩
  intro m
  unfold genPassword
  rcases hrun m with ⟨hloop, hm⟩ | ⟨t', hloop, hm, ht'⟩
  · rw [hloop, if_neg (by omega)]
    rfl
  · rw [hloop, if_pos hm, ht, ← ht']
    rfl

end Util

/-! ## Installing a key -/

/-- `for (i = 0; i < decoded.length(); i++) password[i] = (int) t[i]`. -/
def loadTable (decoded : List UInt8) (password : Table) : Except Fault Table :=
  fillLoop .outOfBounds (fun i => .ok (decoded.getD i 0)) 0 decoded.length password

/-- The configuration of the client. -/
structure Client.Config where
  ip : Option (List UInt8)
  localPort : UInt16
  remotePort : UInt16
  password : Table

/-- `client::setConfig`. -/
def Client.setConfig (ip : Option (List UInt8)) (localPort remotePort : UInt16)
    (password : List UInt8) (c : Client.Config) : Except Fault Client.Config := do
  let c := { c with ip, localPort, remotePort }
  let decoded := base64Decode password
  let table ← loadTable decoded c.password
  return { c with password := table }

/-- The configuration of the server. -/
structure Server.Config where
  listenPort : UInt16
  password : Table

/-- `server::setConfig`. -/
def Server.setConfig (listenPort : UInt16) (password : List UInt8) (c : Server.Config) :
    Except Fault Server.Config := do
  let c := { c with listenPort }
  let decoded := base64Decode password
  let table ← loadTable decoded c.password
  return { c with password := table }

/-- The zeroed table both programs start with. -/
def Table.zero : Table := Vector.replicate 256 0

theorem Client.setConfig_eq (ip : Option (List UInt8)) (localPort remotePort : UInt16)
    (password : List UInt8) (c : Client.Config) :
    Client.setConfig ip localPort remotePort password c =
      (loadTable (base64Decode password) c.password).map fun table =>
        ⟨ip, localPort, remotePort, table⟩ := by
  simp only [Client.setConfig]
  cases h : loadTable (base64Decode password) c.password with
  | error f => rfl
  | ok table => rfl

theorem Server.setConfig_eq (listenPort : UInt16) (password : List UInt8) (c : Server.Config) :
    Server.setConfig listenPort password c =
      (loadTable (base64Decode password) c.password).map fun table => ⟨listenPort, table⟩ := by
  simp only [Server.setConfig]
  cases h : loadTable (base64Decode password) c.password with
  | error f => rfl
  | ok table => rfl

/-- A key that fits is laid over the head of the table. -/
theorem loadTable_eq {decoded : List UInt8} (password : Table) (h : decoded.length ≤ 256) :
    ∃ t, loadTable decoded password = .ok t ∧
      t.toList = decoded ++ password.toList.drop decoded.length := by
  refine ⟨_, fillLoop_eq (fun i => decoded.getD i 0) h fun j _ => by rw [Nat.zero_add], ?_⟩
  refine List.ext_getElem (by simp [h]) ?_
  intro i hi hi'
  by_cases hlt : i < decoded.length
  · rw [List.getElem_append_left hlt]
    simp [overwrite, hlt]
  · rw [List.getElem_append_right (not_lt.1 hlt), List.getElem_drop]
    simp [overwrite, hlt, Vector.get_eq_getElem, Nat.add_sub_cancel' (not_lt.1 hlt)]

/-- A longer key runs over the end of the table. -/
theorem loadTable_error {decoded : List UInt8} (password : Table) (h : 256 < decoded.length) :
    loadTable decoded password = .error .outOfBounds :=
  fillLoop_error h fun _ _ => ⟨_, rfl⟩

/-- A table is a permutation when its entries are different. -/
theorem Table.bijective_lookup_iff (t : Table) : Function.Bijective t.lookup ↔ t.toList.Nodup := by
  rw [← Finite.injective_iff_bijective, List.nodup_iff_injective_get]
  constructor
  · intro h i j hij
    have hi : i.1 < 256 := by simpa using i.2
    have hj : j.1 < 256 := by simpa using j.2
    have heq : UInt8.ofNat i.1 = UInt8.ofNat j.1 := by
      apply h
      simpa [Table.lookup, Vector.get_eq_getElem, Nat.mod_eq_of_lt hi, Nat.mod_eq_of_lt hj]
        using hij
    apply Fin.ext
    calc i.1 = (UInt8.ofNat i.1).toNat := (UInt8.toNat_ofNat_of_lt' hi).symm
      _ = (UInt8.ofNat j.1).toNat := by rw [heq]
      _ = j.1 := UInt8.toNat_ofNat_of_lt' hj
  · intro h a b hab
    have heq : (⟨a.toNat, by simpa using a.toNat_lt⟩ : Fin t.toList.length) =
        ⟨b.toNat, by simpa using b.toNat_lt⟩ := by
      apply h
      simpa [Table.lookup, Vector.get_eq_getElem] using hab
    have hval : a.toNat = b.toNat := Fin.mk.inj heq
    exact UInt8.toNat_inj.1 hval

/-- **A generated key gives both ends the same bijection.**  The generator stops
exactly at the draw that completes the byte values, its table lists them in the
order of their first occurrence, and the string it returns is decoded to 256
bytes, which both loaders install whatever was in their table before. -/
theorem generated_key (dis : ℕ → UInt8) (hall : ∀ b, ∃ k, dis k = b) :
    ∃ (n : ℕ) (P : Key) (text : List UInt8),
      ((∀ b, ∃ k ≤ n, dis k = b) ∧ ¬ ∀ b, ∃ k < n, dis k = b) ∧
      (∀ m, Util.genPassword dis m = .ok (if n < m then some text else none)) ∧
      (∀ i j : Fin 256, i < j → ∀ k, dis k = P.table.get j → ∃ k' < k, dis k' = P.table.get i) ∧
      (base64Decode text).length = 256 ∧
      (∀ ip localPort remotePort c, Client.setConfig ip localPort remotePort text c =
        .ok ⟨ip, localPort, remotePort, P.table⟩) ∧
      ∀ listenPort c, Server.setConfig listenPort text c = .ok ⟨listenPort, P.table⟩ := by
  obtain ⟨n, t, hn, ht, hgen⟩ := Util.genPassword_eq hall
  have hnodup : t.toList.Nodup := by
    rw [ht]
    exact nodup_firstSeen dis (n + 1)
  have hload : ∀ password, loadTable (base64Decode (base64Encode t.toList)) password = .ok t := by
    intro password
    rw [base64Decode_base64Encode]
    have hfits : t.toList.length ≤ 256 := by simp
    obtain ⟨t', hload, ht'⟩ := loadTable_eq password hfits
    rw [hload, Except.ok.injEq]
    apply Vector.toList_inj.1
    rw [ht', List.drop_eq_nil_of_le (by simp), List.append_nil]
  refine ⟨n, ⟨t, (t.bijective_lookup_iff.2 hnodup).1⟩, base64Encode t.toList, hn, hgen, ?_, ?_, ?_,
    ?_⟩
  · intro i j hij k hk
    have hj : j.1 < (firstSeen dis (n + 1)).length := by
      rw [← ht]
      simp
    have hget : ∀ i : Fin 256, ∀ h : i.1 < (firstSeen dis (n + 1)).length,
        (firstSeen dis (n + 1))[i.1] = t.get i := by
      intro i h
      simp only [← ht]
      rfl
    obtain ⟨k', hlt, hk'⟩ := firstSeen_ordered hij hj (k := k) (by rw [hget]; exact hk)
    exact ⟨k', hlt, by rw [hk', hget]⟩
  · rw [base64Decode_base64Encode]
    simp
  · intro ip localPort remotePort c
    rw [Client.setConfig_eq, hload]
    rfl
  · intro listenPort c
    rw [Server.setConfig_eq, hload]
    rfl

/-- A generator that draws the byte values in order. -/
theorem generated_key_counting : ∃ (n : ℕ) (text : List UInt8),
    (∀ m, Util.genPassword (fun k => UInt8.ofNat k) m =
      .ok (if n < m then some text else none)) ∧ (base64Decode text).length = 256 := by
  obtain ⟨n, P, text, -, hgen, -, hlen, -, -⟩ :=
    generated_key (fun k => UInt8.ofNat k) fun b => ⟨b.toNat, by simp⟩
  exact ⟨n, text, hgen, hlen⟩

/-! ## Keys that are not generated -/

/-- What the loaders owe a key: they leave a permutation in the table, or refuse
the key.  They return nothing, so that they could only refuse it by ending the
program. -/
def UsableOrRefused : Except Fault Table → Prop
  | .ok table => Function.Bijective table.lookup
  | .error f => f = .exited

/-- The condition: the key is not longer than the table, and its bytes and those
it leaves of the old table are all different. -/
structure Completes (decoded : List UInt8) (password : Table) : Prop where
  fits : decoded.length ≤ 256
  distinct : decoded.Nodup
  rest : (password.toList.drop decoded.length).Nodup
  disjoint : ∀ b ∈ decoded, b ∉ password.toList.drop decoded.length

theorem usableOrRefused_iff (decoded : List UInt8) (password : Table) :
    UsableOrRefused (loadTable decoded password) ↔ Completes decoded password := by
  by_cases hfits : decoded.length ≤ 256
  · obtain ⟨t, hload, ht⟩ := loadTable_eq password hfits
    rw [hload]
    show Function.Bijective t.lookup ↔ _
    rw [t.bijective_lookup_iff, ht, List.nodup_append']
    constructor
    · rintro ⟨hdistinct, hrest, hdisjoint⟩
      exact ⟨hfits, hdistinct, hrest, fun b hb hb' => hdisjoint hb hb'⟩
    · intro h
      exact ⟨h.distinct, h.rest, fun b hb hb' => h.disjoint b hb hb'⟩
  · rw [loadTable_error password (not_le.1 hfits)]
    constructor
    · intro h
      cases h
    · intro h
      exact absurd h.fits hfits

/-- Over the table the programs start with: the key is all the byte values, or
all of them but zero. -/
theorem completes_zero_iff (decoded : List UInt8) : Completes decoded Table.zero ↔
    decoded.Nodup ∧ (decoded.length = 256 ∨ decoded.length = 255 ∧ 0 ∉ decoded) := by
  have hdrop : Table.zero.toList.drop decoded.length =
      List.replicate (256 - decoded.length) 0 := by
    rw [Table.zero, Vector.toList_replicate, List.drop_replicate]
  constructor
  · intro h
    have hrest := h.rest
    rw [hdrop, List.nodup_replicate] at hrest
    have hfits := h.fits
    refine ⟨h.distinct, ?_⟩
    rcases Nat.lt_or_ge decoded.length 256 with hlt | hge
    · have hlen : decoded.length = 255 := by omega
      refine .inr ⟨hlen, fun hzero => h.disjoint 0 hzero ?_⟩
      rw [hdrop, hlen]
      exact List.mem_singleton_self 0
    · exact .inl (by omega)
  · rintro ⟨hdistinct, hlen | ⟨hlen, hzero⟩⟩
    · refine ⟨by omega, hdistinct, ?_, ?_⟩
      · rw [hdrop, hlen]
        exact List.nodup_nil
      · intro b _
        rw [hdrop, hlen]
        exact List.not_mem_nil
    · refine ⟨by omega, hdistinct, ?_, ?_⟩
      · rw [hdrop, hlen]
        exact List.nodup_singleton 0
      · intro b hb
        rw [hdrop, hlen]
        intro h
        rw [List.mem_singleton.1 h] at hb
        exact hzero hb

/-- The table `client::setConfig` leaves behind. -/
theorem Client.password_setConfig (ip : Option (List UInt8)) (localPort remotePort : UInt16)
    (password : List UInt8) (c : Client.Config) :
    (Client.setConfig ip localPort remotePort password c).map (·.password) =
      loadTable (base64Decode password) c.password := by
  rw [Client.setConfig_eq]
  cases loadTable (base64Decode password) c.password with
  | error f => rfl
  | ok table => rfl

/-- The table `server::setConfig` leaves behind. -/
theorem Server.password_setConfig (listenPort : UInt16) (password : List UInt8)
    (c : Server.Config) : (Server.setConfig listenPort password c).map (·.password) =
      loadTable (base64Decode password) c.password := by
  rw [Server.setConfig_eq]
  cases loadTable (base64Decode password) c.password with
  | error f => rfl
  | ok table => rfl

/-- **Which configured keys are usable.**  Whatever the key and whatever the table
was, both loaders leave a permutation behind exactly when the key completes the
table. -/
theorem configured_key_iff (password : List UInt8) :
    (∀ ip localPort remotePort c,
      UsableOrRefused ((Client.setConfig ip localPort remotePort password c).map (·.password)) ↔
        Completes (base64Decode password) c.password) ∧
    ∀ listenPort c,
      UsableOrRefused ((Server.setConfig listenPort password c).map (·.password)) ↔
        Completes (base64Decode password) c.password := by
  constructor
  · intro ip localPort remotePort c
    rw [Client.password_setConfig]
    exact usableOrRefused_iff _ _
  · intro listenPort c
    rw [Server.password_setConfig]
    exact usableOrRefused_iff _ _

/-- A key of three zero bytes is installed, and one of 257 bytes runs over the end
of the table. -/
theorem configured_key_unchecked :
    (∃ c, Server.setConfig 7009 [0x41, 0x41, 0x41, 0x41] ⟨0, Table.zero⟩ = .ok c ∧
      ¬ Function.Bijective c.password.lookup) ∧
    ¬ UsableOrRefused ((Server.setConfig 7009 [0x41, 0x41, 0x41, 0x41] ⟨0, Table.zero⟩).map
      (·.password)) ∧
    Server.setConfig 7009 (base64Encode (List.replicate 257 0)) ⟨0, Table.zero⟩ =
      .error .outOfBounds := by
  have hdecode : base64Decode [0x41, 0x41, 0x41, 0x41] = [0, 0, 0] := by decide
  have hbad : ¬ UsableOrRefused ((Server.setConfig 7009 [0x41, 0x41, 0x41, 0x41]
      ⟨0, Table.zero⟩).map (·.password)) := by
    rw [Server.password_setConfig, usableOrRefused_iff, hdecode]
    intro h
    exact absurd h.distinct (by decide)
  refine ⟨?_, hbad, ?_⟩
  · have hfits : [(0 : UInt8), 0, 0].length ≤ 256 := by decide
    obtain ⟨t, hload, -⟩ := loadTable_eq Table.zero hfits
    have hset : Server.setConfig 7009 [0x41, 0x41, 0x41, 0x41] ⟨0, Table.zero⟩ = .ok ⟨7009, t⟩ := by
      rw [Server.setConfig_eq, hdecode, hload]
      rfl
    refine ⟨_, hset, ?_⟩
    rwa [hset] at hbad
  · have hlong : 256 < (List.replicate 257 (0 : UInt8)).length := by
      rw [List.length_replicate]
      omega
    rw [Server.setConfig_eq, base64Decode_base64Encode, loadTable_error _ hlong]
    rfl

end LightSocks
