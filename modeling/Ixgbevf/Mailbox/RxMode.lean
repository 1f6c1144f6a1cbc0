import Ixgbevf.Lib.Packing
import Ixgbevf.Mailbox.Macvlans

/-!
# What the PF is told to receive

`ixgbevf_set_rx_mode` tells the PF what the interface is to receive: a mode, if the PF speaks a
version that has it, the hashes of the multicast addresses, two in a word and thirty at most, and the
unicast addresses.  It looks at no result.
-/

namespace Ixgbevf.RxMode

open StateProgram Contents
open Macvlans (messages opcodeField infoField Accepts AcceptsAll ucRequests ucMessage ucMessages
  writeMsgReadAck_places)

variable {D : Type} (V : Device D)

/-! ### The driver -/

/-- The part of `struct net_device` that `ixgbevf_set_rx_mode` reads. -/
structure NetDevice where
  /-- `IFF_PROMISC`. -/
  promisc : Bool
  /-- `IFF_ALLMULTI`. -/
  allmulti : Bool
  /-- `IFF_BROADCAST` or `IFF_MULTICAST`. -/
  multicast : Bool
  /-- `mc`. -/
  mc : List MacAddr
  /-- `uc`. -/
  uc : List MacAddr

/-- The most inclusive mode that is needed. -/
def NetDevice.xcastMode (n : NetDevice) : XcastMode :=
  if n.promisc then .promisc else if n.allmulti then .allmulti else if n.multicast then .multi
  else .none

/-- `ixgbevf_set_rx_mode`, where `stack` are the words that the buffer of the multicast list holds from
before. -/
def setRxMode (n : NetDevice) (stack : List (BitVec 32)) : VfM D Unit := do
  let _ ← updateXcastMode V n.xcastMode
  let _ ← updateMcAddrListVf V n.mc stack
  let _ ← Macvlans.writeUcAddrList V n.uc

/-- The requests that it makes of a PF with the version `api`. -/
def requests (api : ApiVersion) (n : NetDevice) (stack : List (BitVec 32)) : List Request :=
  (if xcastAllowed api n.xcastMode then [.updateXcastMode n.xcastMode] else [])
    ++ .updateMcAddrList n.mc stack :: ucRequests n.uc

/-! ### The PF -/

/-- The filters that the PF has for the VF. -/
structure PfFilters where
  /-- The mode. -/
  mode : ℕ
  /-- The hashes of the multicast addresses. -/
  vectors : List ℕ
  /-- The unicast addresses. -/
  macvlans : List MacAddr

/-- Entry `k` of an array of 16-bit numbers in words. -/
def half (words : List (BitVec 32)) (k : ℕ) : ℕ :=
  Packing.field 16 (k % 2) (words.getD (k / 2) 0#32).toNat

/-- The filters after a message. -/
def PfFilters.receive (f : PfFilters) (msg : List (BitVec 32)) : PfFilters :=
  let word := msg.getD 0 0#32
  if opcodeField word = vfUpdateXcastMode then
    { f with mode := (msg.getD 1 0#32).toNat }
  else if opcodeField word = vfSetMulticast then
    { f with vectors := (List.range (min (infoField word) 30)).map (half (msg.drop 1)) }
  else
    { f with macvlans := Macvlans.receive f.macvlans [msg] }

/-- The filters of the PF are those that the interface is to have. -/
structure Programmed (mcFilterType : BitVec 32) (n : NetDevice) (f : PfFilters) : Prop where
  /-- The mode. -/
  mode : f.mode = n.xcastMode.value
  /-- Every multicast address. -/
  multicast : ∀ addr ∈ n.mc, (mtaVector mcFilterType addr).toNat ∈ f.vectors
  /-- The unicast addresses. -/
  unicast : f.macvlans = n.uc

/-! ### The list of multicast addresses -/

/-- A hash has 12 bits. -/
theorem mtaVector_lt (mcFilterType : BitVec 32) (addr : MacAddr) :
  (mtaVector mcFilterType addr).toNat < 2 ^ 16
  := by
  unfold mtaVector
  rw [BitVec.toNat_and]
  exact Nat.lt_of_le_of_lt Nat.and_le_right (by decide)

/-- An entry in the lower half of a word. -/
theorem toNat_lower {v : BitVec 32} (w : BitVec 32) (hv : v.toNat < 2 ^ 16) :
  (w &&& 0xFFFF0000#32 ||| v &&& 0xFFFF#32).toNat = v.toNat + w.toNat / 2 ^ 16 * 2 ^ 16
  := by
  have hmask : BitVec.allOnes 32 <<< 16 = 0xFFFF0000#32 := by decide
  have hhigh : w &&& 0xFFFF0000#32 = w >>> 16 <<< 16 := by
    rw [BitVec.shiftLeft_ushiftRight, hmask]
  have hmod : (v &&& 0xFFFF#32).toNat = v.toNat % 2 ^ 16 :=
    Bits.toNat_and_mask (k := 16) v (by decide)
  have hlow : (v &&& 0xFFFF#32).toNat = v.toNat := by
    rw [hmod, Nat.mod_eq_of_lt hv]
  rw [BitVec.or_comm, hhigh, Bits.toNat_or_shiftLeft, hlow, BitVec.toNat_ushiftRight,
    Nat.shiftRight_eq_div_pow]
  · rw [hlow]
    exact hv
  · rw [BitVec.toNat_ushiftRight, Nat.shiftRight_eq_div_pow]
    omega

/-- An entry in the upper half of a word. -/
theorem toNat_upper {v : BitVec 32} (w : BitVec 32) (hv : v.toNat < 2 ^ 16) :
  (w &&& 0xFFFF#32 ||| v <<< 16).toNat = w.toNat % 2 ^ 16 + v.toNat * 2 ^ 16
  := by
  have hlow : (w &&& 0xFFFF#32).toNat = w.toNat % 2 ^ 16 :=
    Bits.toNat_and_mask (k := 16) w (by decide)
  rw [Bits.toNat_or_shiftLeft, hlow]
  · omega
  · omega

/-- Writing an entry changes no other. -/
theorem half_setVector {words : List (BitVec 32)} {i : ℕ} {v : BitVec 32}
    (hi : i < 2 * words.length) (hv : v.toNat < 2 ^ 16) (k : ℕ) :
  half (setVector words i v) k = if k = i then v.toNat else half words k
  := by
  have hlt : i / 2 < words.length := by omega
  unfold half setVector
  simp only [List.getD_eq_getElem?_getD, List.getElem?_modify]
  by_cases hword : i / 2 = k / 2
  · rw [← hword, List.getElem?_eq_getElem hlt]
    simp only [Option.map_eq_map, Option.map_some, Option.getD_some, if_true]
    rcases Nat.mod_two_eq_zero_or_one i with heven | hodd
    · rw [if_pos heven, toNat_lower _ hv]
      rcases Nat.mod_two_eq_zero_or_one k with hk | hk
      · rw [if_pos (by omega), hk]
        simp only [Packing.field]
        omega
      · rw [if_neg (by omega), hk]
        simp only [Packing.field]
        omega
    · rw [if_neg (by omega), toNat_upper _ hv]
      rcases Nat.mod_two_eq_zero_or_one k with hk | hk
      · rw [if_neg (by omega), hk]
        simp [Packing.field]
      · rw [if_pos (by omega), hk]
        simp only [Packing.field]
        omega
  · rw [if_neg (by omega)]
    simp [hword]

/-- The entries after the vectors of addresses have been filled in. -/
theorem half_fillVectors {mcFilterType : BitVec 32} {addrs : List MacAddr} {i : ℕ}
    {words : List (BitVec 32)} (h : i + addrs.length ≤ 2 * words.length) (k : ℕ) :
  half (fillVectors mcFilterType i addrs words) k
    = if i ≤ k ∧ k < i + addrs.length then
        (mtaVector mcFilterType (addrs.getD (k - i) (Vector.replicate 6 0))).toNat
      else half words k
  := by
  induction addrs generalizing i words with
  | nil =>
    rw [if_neg (by simp)]
    rfl
  | cons addr addrs ih =>
    rw [List.length_cons] at h
    have hlength : (setVector words i (mtaVector mcFilterType addr)).length = words.length :=
      List.length_modify ..
    rw [fillVectors, ih (by omega), half_setVector (by omega) (mtaVector_lt mcFilterType addr)]
    rcases Nat.lt_trichotomy k i with hlt | rfl | hgt
    · rw [if_neg (by omega), if_neg (by omega), if_neg (by omega)]
    · rw [if_neg (by omega), if_pos rfl, if_pos (by simp), Nat.sub_self, List.getD_cons_zero]
    · rw [List.length_cons]
      by_cases hk : k < i + 1 + addrs.length
      · rw [if_pos (by omega), if_pos (by omega), show k - i = k - (i + 1) + 1 by omega,
          List.getD_cons_succ]
      · rw [if_neg (by omega), if_neg (by omega), if_neg (by omega)]

/-- The PF finds the hashes of the first thirty addresses in the message. -/
theorem receive_multicastWords {mcFilterType : BitVec 32} {addrs : List MacAddr}
    {stack : List (BitVec 32)} (hstack : stack.length = 15) (f : PfFilters) :
  f.receive (multicastWords mcFilterType addrs stack)
    = { f with vectors := (addrs.take 30).map fun addr => (mtaVector mcFilterType addr).toNat }
  := by
  have hword : (multicastWords mcFilterType addrs stack).getD 0 0#32
      = vfSetMulticast ||| BitVec.ofNat 32 (min addrs.length 30) <<< msginfoShift := rfl
  have hfields : ∀ cnt ≤ 30,
      opcodeField (vfSetMulticast ||| BitVec.ofNat 32 cnt <<< msginfoShift) = vfSetMulticast
        ∧ infoField (vfSetMulticast ||| BitVec.ofNat 32 cnt <<< msginfoShift) = cnt := by
    decide
  obtain ⟨hop, hinfo⟩ := hfields (min addrs.length 30) (Nat.min_le_right _ _)
  have hdrop : (multicastWords mcFilterType addrs stack).drop 1
      = fillVectors mcFilterType 0 (addrs.take (min addrs.length 30)) stack := rfl
  have hvectors : (List.range (min addrs.length 30)).map
        (half (fillVectors mcFilterType 0 (addrs.take (min addrs.length 30)) stack))
      = (addrs.take 30).map fun addr => (mtaVector mcFilterType addr).toNat := by
    have htake : addrs.take (min addrs.length 30) = addrs.take 30 := by
      rw [Nat.min_comm, ← List.take_take, List.take_length]
    rw [htake]
    apply List.ext_getElem
    · simp [Nat.min_comm]
    · intro k hk hk'
      simp only [List.length_map, List.length_range] at hk
      simp only [List.length_map] at hk'
      rw [List.getElem_map, List.getElem_range, half_fillVectors (by simp; omega), if_pos (by omega),
        Nat.sub_zero, List.getElem_map, List.getD_eq_getElem _ _ hk']
  unfold PfFilters.receive
  simp only [hword, hop, hinfo, hdrop, if_true]
  rw [if_neg (by decide), Nat.min_eq_left (Nat.min_le_right _ _), hvectors]

/-- Filling the vectors in does not change the number of words. -/
theorem fillVectors_length
    (mcFilterType : BitVec 32) (i : ℕ) (addrs : List MacAddr) (words : List (BitVec 32)) :
  (fillVectors mcFilterType i addrs words).length = words.length
  := by
  induction addrs generalizing i words with
  | nil => rfl
  | cons addr addrs ih =>
    rw [fillVectors, ih]
    exact List.length_modify ..

/-! ### The list of unicast addresses -/

/-- The PF takes the messages about the unicast addresses one after the other. -/
theorem foldl_receive {msgs : List (List (BitVec 32))}
    (h : ∀ msg ∈ msgs, opcodeField (msg.getD 0 0#32) = vfSetMacvlan) (f : PfFilters) :
  msgs.foldl PfFilters.receive f = { f with macvlans := Macvlans.receive f.macvlans msgs }
  := by
  induction msgs generalizing f with
  | nil => rfl
  | cons msg msgs ih =>
    have hop := h msg List.mem_cons_self
    have hfirst : f.receive msg = { f with macvlans := Macvlans.receive f.macvlans [msg] } := by
      unfold PfFilters.receive
      simp only [hop]
      rw [if_neg (by decide), if_neg (by decide)]
    have happ : Macvlans.receive (Macvlans.receive f.macvlans [msg]) msgs
        = Macvlans.receive f.macvlans (msg :: msgs) := by
      unfold Macvlans.receive
      rw [← List.foldl_append, ← List.filterMap_append]
      rfl
    rw [List.foldl_cons, ih fun m hm => h m (List.mem_cons_of_mem _ hm), hfirst, ← happ]

/-- Every message of the list is about the unicast addresses. -/
theorem ucMessages_opcode {addrs : List MacAddr} {msg : List (BitVec 32)}
    (h : msg ∈ ucMessages addrs) :
  opcodeField (msg.getD 0 0#32) = vfSetMacvlan
  := by
  unfold ucMessages at h
  split at h
  · obtain ⟨i, hi⟩ := List.mem_iff_getElem?.mp h
    have hfrom : (Macvlans.ucMessagesFrom (BitVec.ofNat 32 0) addrs)[i]? = some msg := hi
    obtain ⟨addr, -, -, rfl⟩ := Macvlans.ucMessagesFrom_cases hfrom
    apply Macvlans.opcodeField_macvlanWord
  · rw [List.mem_singleton.mp h]
    apply Macvlans.opcodeField_macvlanWord

/-- A message adds at most one address. -/
theorem receive_length (held : List MacAddr) (msgs : List (List (BitVec 32))) :
  (Macvlans.receive held msgs).length ≤ held.length + msgs.length
  := by
  have hupdates : ∀ (us : List (Macvlans.Update MacAddr)) (held : List MacAddr),
      (us.foldl Macvlans.Update.apply held).length ≤ held.length + us.length := by
    intro us
    induction us with
    | nil =>
      intro held
      simp
    | cons u us ih =>
      intro held
      have hstep : (Macvlans.Update.apply held u).length ≤ held.length + 1 := by
        cases u <;> simp [Macvlans.Update.apply]
      have hrest := ih (Macvlans.Update.apply held u)
      rw [List.foldl_cons, List.length_cons]
      omega
  have hdecoded : (msgs.filterMap Macvlans.decode).length ≤ msgs.length :=
    List.length_filterMap_le ..
  have hall := hupdates (msgs.filterMap Macvlans.decode) held
  unfold Macvlans.receive
  omega

/-- The 256th address clears the list of the PF. -/
theorem receive_long {addrs : List MacAddr} (h : 256 ≤ addrs.length) (held : List MacAddr) :
  (Macvlans.receive held (ucMessages addrs)).length < addrs.length
  := by
  have hne : addrs ≠ [] := by
    rintro rfl
    simp at h
  have hmsgs : ucMessages addrs = Macvlans.ucMessagesFrom (BitVec.ofNat 32 0) addrs := if_pos hne
  have hlength : (ucMessages addrs).length = addrs.length := by
    rw [hmsgs, Macvlans.ucMessagesFrom_length]
  have hget : (ucMessages addrs)[255]?
      = some (ucMessage (BitVec.ofNat 32 (0 + 255 + 1)) (some addrs[255])) := by
    rw [hmsgs]
    exact Macvlans.ucMessagesFrom_get (List.getElem?_eq_getElem h)
  have hclear : Macvlans.decode (ucMessage (BitVec.ofNat 32 (0 + 255 + 1)) (some addrs[255]))
      = some .clear := by
    rw [Macvlans.decode_ucMessage]
    rfl
  obtain ⟨hlt, heq⟩ := List.getElem?_eq_some_iff.mp hget
  have hsplit : ucMessages addrs = (ucMessages addrs).take 255
      ++ (ucMessages addrs)[255] :: (ucMessages addrs).drop 256 := by
    rw [← List.drop_eq_getElem_cons hlt, List.take_append_drop]
  have hafter : Macvlans.receive held (ucMessages addrs)
      = Macvlans.receive [] ((ucMessages addrs).drop 256) := by
    conv_lhs => rw [hsplit, heq]
    unfold Macvlans.receive
    rw [List.filterMap_append, List.foldl_append, List.filterMap_cons_some hclear, List.foldl_cons]
    rfl
  have hbound := receive_length [] ((ucMessages addrs).drop 256)
  rw [List.length_drop, hlength, List.length_nil] at hbound
  rw [hafter]
  omega

/-- The PF is left with the unicast addresses exactly when there are at most 255. -/
theorem receive_ucMessages_iff (addrs : List MacAddr) :
  (∀ held, Macvlans.receive held (ucMessages addrs) = addrs) ↔ addrs.length ≤ 255
  := by
  constructor
  · intro h
    by_contra hlong
    have hlong' : 256 ≤ addrs.length := by omega
    have hlt := receive_long hlong' []
    rw [h []] at hlt
    omega
  · intro hshort
    exact ((Macvlans.encodes_iff addrs).mpr hshort).held

/-! ### The messages -/

/-- The messages to a PF with the version `api`. -/
def rxMessages (api : ApiVersion) (mcFilterType : BitVec 32) (n : NetDevice)
    (stack : List (BitVec 32)) : List (List (BitVec 32)) :=
  (if xcastAllowed api n.xcastMode then
      [[vfUpdateXcastMode, BitVec.ofNat 32 n.xcastMode.value]] else [])
    ++ multicastWords mcFilterType n.mc stack :: ucMessages n.uc

/-- A request that is accepted places its message. -/
theorem accepted_places
    {r : Request} {msg : List (BitVec 32)} {v : Vf (D × List (ℕ × BitVec 32))}
    (hexchange : r.exchange (recording V) v = writeMsgReadAck (recording V) msg msg.length)
    (hsends : r.sends v = true) (hpos : 0 < msg.length) (hsize : msg.length ≤ 16)
    (h : Accepts (recording V) r v) :
  mailLog ((r.run (recording V)).run v).2.port = mailLog v.port ++ placed 0 msg
  := by
  obtain ⟨hzero, -, hop⟩ := h
  have hport := run_port (recording V) r v
  have hones : opcodeField failedReadReg ≠ r.opcode := by
    cases r <;> exact of_decide_eq_true rfl
  rw [hexchange] at hzero hop
  have hword : ((writeMsgReadAck (recording V) msg msg.length).run v.port).1.2.getD 0 0#32
      ≠ failedReadReg := by
    intro hread
    rw [hread] at hop
    exact hones hop
  rw [if_pos hsends, hexchange] at hport
  have hplaced := writeMsgReadAck_places V msg hpos hsize hzero hword
  rw [List.take_length] at hplaced
  rw [hport, hplaced]

/-- The hashes are computed as before. -/
def SameFilter (v v' : Vf D) : Prop := v'.mcFilterType = v.mcFilterType

instance : IsPreorder (Vf D) SameFilter where
  refl _ := rfl
  trans _ _ _ h h' := h'.trans h

/-- Asking for a mode leaves the hashes alone. -/
theorem updateXcastMode_sameFilter (mode : XcastMode) :
  Keeps SameFilter (updateXcastMode V mode)
  := by
  unfold updateXcastMode
  apply keeps_bind
  · apply keeps_get
  · intro v
    apply keeps_ite
    · apply keeps_bind
      · intro v
        rfl
      · intro x
        apply keeps_ite
        · apply keeps_pure
        · apply keeps_ite <;> apply keeps_pure
    · apply keeps_pure

/-- It makes its requests. -/
theorem setRxMode_run (n : NetDevice) (stack : List (BitVec 32)) (v : Vf D) :
  ((setRxMode V n stack).run v).2
    = (requests v.apiVersion n stack).foldl (fun v r => ((r.run V).run v).2) v
  := by
  have huc := Macvlans.writeUcAddrList_run V n.uc
  have hskip : xcastAllowed v.apiVersion n.xcastMode = false →
      ((updateXcastMode V n.xcastMode).run v).2 = v := by
    intro hallowed
    rw [updateXcastMode, run_get_bind, hallowed]
    rfl
  have hall : ((setRxMode V n stack).run v).2
      = ((Macvlans.writeUcAddrList V n.uc).run
          ((updateMcAddrListVf V n.mc stack).run
            ((updateXcastMode V n.xcastMode).run v).2).2).2 := rfl
  unfold requests
  rw [hall, huc]
  split
  next hallowed => rfl
  next hallowed =>
    rw [hskip (by simpa using hallowed)]
    rfl

/-- What the requests for the unicast addresses write when they are accepted. -/
theorem ucRequests_mailLog
    {addrs : List MacAddr} {v : Vf (D × List (ℕ × BitVec 32))}
    (h : AcceptsAll (recording V) (ucRequests addrs) v) :
  mailLog ((ucRequests addrs).foldl (fun v r => ((r.run (recording V)).run v).2) v).port
    = mailLog v.port ++ ((ucMessages addrs).map (placed 0)).flatten
  := by
  revert h
  unfold ucRequests ucMessages
  split
  · intro h
    exact Macvlans.ucRequestsFrom_mailLog V h
  · intro h
    rw [List.foldl_cons, List.foldl_nil, Macvlans.setUcAddr_places V h.1]
    simp

/-- What the requests for both lists write when they are accepted. -/
theorem lists_mailLog
    {n : NetDevice} {stack : List (BitVec 32)} {v : Vf (D × List (ℕ × BitVec 32))}
    (hstack : stack.length = 15)
    (h : AcceptsAll (recording V) (.updateMcAddrList n.mc stack :: ucRequests n.uc) v) :
  mailLog ((Request.updateMcAddrList n.mc stack :: ucRequests n.uc).foldl
      (fun v r => ((r.run (recording V)).run v).2) v).port
    = mailLog v.port
      ++ ((multicastWords v.mcFilterType n.mc stack :: ucMessages n.uc).map (placed 0)).flatten
  := by
  obtain ⟨hfirst, hrest⟩ := h
  have hlength : (multicastWords v.mcFilterType n.mc stack).length = 16 := by
    rw [multicastWords, List.length_cons, fillVectors_length, hstack]
  have hexchange : (Request.updateMcAddrList n.mc stack).exchange (recording V) v
      = writeMsgReadAck (recording V) (multicastWords v.mcFilterType n.mc stack)
        (multicastWords v.mcFilterType n.mc stack).length := by
    rw [hlength]
    rfl
  have hmulticast := accepted_places V hexchange rfl (by omega) (by omega) hfirst
  rw [List.foldl_cons, ucRequests_mailLog V hrest, hmulticast, List.append_assoc]
  rfl

/-- When every request is accepted, it writes its messages to the mailbox memory. -/
theorem setRxMode_messages
    {n : NetDevice} {stack : List (BitVec 32)} {v : Vf D} (hstack : stack.length = 15)
    (h : AcceptsAll (recording V) (requests v.apiVersion n stack) (recorded v)) :
  messages (mailLog ((setRxMode (recording V) n stack).run (recorded v)).2.port)
    = rxMessages v.apiVersion v.mcFilterType n stack
  := by
  have hne : ∀ msg ∈ rxMessages v.apiVersion v.mcFilterType n stack, msg ≠ [] := by
    intro msg hmsg
    rcases List.mem_append.mp hmsg with hmode | hlists
    · split at hmode
      · rw [List.mem_singleton.mp hmode]
        exact List.cons_ne_nil _ _
      · cases hmode
    · obtain rfl | huc := List.mem_cons.mp hlists
      · exact List.cons_ne_nil _ _
      · rintro rfl
        have hop := ucMessages_opcode huc
        revert hop
        decide
  have hlog : mailLog ((setRxMode (recording V) n stack).run (recorded v)).2.port
      = ((rxMessages v.apiVersion v.mcFilterType n stack).map (placed 0)).flatten := by
    have hversion : (recorded v).apiVersion = v.apiVersion := rfl
    rw [setRxMode_run, hversion]
    revert h
    unfold requests rxMessages
    by_cases hallowed : xcastAllowed v.apiVersion n.xcastMode = true
    · simp only [hallowed, if_true, List.cons_append, List.nil_append]
      rintro ⟨hfirst, hrest⟩
      have hexchange : (Request.updateXcastMode n.xcastMode).exchange (recording V) (recorded v)
          = writeMsgReadAck (recording V) [vfUpdateXcastMode, BitVec.ofNat 32 n.xcastMode.value] 2 :=
        rfl
      have hmode := accepted_places V hexchange hallowed Nat.zero_lt_two (Nat.le_add_left 2 14) hfirst
      have hfilter : (((Request.updateXcastMode n.xcastMode).run (recording V)).run
          (recorded v)).2.mcFilterType = v.mcFilterType :=
        updateXcastMode_sameFilter (recording V) n.xcastMode (recorded v)
      rw [List.foldl_cons, lists_mailLog V hstack hrest, hmode, hfilter]
      rfl
    · simp only [if_neg hallowed, List.nil_append]
      intro hrest
      exact lists_mailLog V hstack hrest
  rw [hlog, Macvlans.messages_placed _ hne]

/-! ### What the PF is left with -/

/-- The filters after all messages. -/
theorem foldl_rxMessages
    {api : ApiVersion} {mcFilterType : BitVec 32} {n : NetDevice} {stack : List (BitVec 32)}
    (hstack : stack.length = 15) (f : PfFilters) :
  (rxMessages api mcFilterType n stack).foldl PfFilters.receive f
    = { mode := if xcastAllowed api n.xcastMode then n.xcastMode.value else f.mode
        vectors := (n.mc.take 30).map fun addr => (mtaVector mcFilterType addr).toNat
        macvlans := Macvlans.receive f.macvlans (ucMessages n.uc) }
  := by
  have hmode : f.receive [vfUpdateXcastMode, BitVec.ofNat 32 n.xcastMode.value]
      = { f with mode := n.xcastMode.value } := by
    cases n.xcastMode <;> rfl
  have hlists : ∀ f : PfFilters,
      (multicastWords mcFilterType n.mc stack :: ucMessages n.uc).foldl PfFilters.receive f
        = { f with
            vectors := (n.mc.take 30).map fun addr => (mtaVector mcFilterType addr).toNat
            macvlans := Macvlans.receive f.macvlans (ucMessages n.uc) } := by
    intro f
    rw [List.foldl_cons, receive_multicastWords hstack, foldl_receive fun _ => ucMessages_opcode]
  unfold rxMessages
  split
  · rw [List.foldl_append, hlists, List.foldl_cons, List.foldl_nil, hmode]
  · rw [List.nil_append, hlists]

/-- Where the PF accepts every request, it is left with the filters that the interface is to have,
whatever it had, exactly when the version has the mode, the addresses beyond the thirtieth hash like
earlier ones, and there are at most 255 unicast addresses. -/
theorem setRxMode_programs_iff
    {n : NetDevice} {stack : List (BitVec 32)} {v : Vf D} (hstack : stack.length = 15)
    (h : AcceptsAll (recording V) (requests v.apiVersion n stack) (recorded v)) :
  (∀ held, Programmed v.mcFilterType n
      ((messages (mailLog ((setRxMode (recording V) n stack).run (recorded v)).2.port)).foldl
        PfFilters.receive held))
    ↔ xcastAllowed v.apiVersion n.xcastMode
      ∧ (∀ addr ∈ n.mc, ∃ addr' ∈ n.mc.take 30,
          mtaVector v.mcFilterType addr' = mtaVector v.mcFilterType addr)
      ∧ n.uc.length ≤ 255
  := by
  rw [setRxMode_messages V hstack h, ← receive_ucMessages_iff]
  constructor
  · intro hprogrammed
    refine ⟨?_, ?_, ?_⟩
    · by_contra hallowed
      have hmode := (hprogrammed ⟨n.xcastMode.value + 1, [], []⟩).mode
      rw [foldl_rxMessages hstack, if_neg hallowed] at hmode
      exact Nat.succ_ne_self _ hmode
    · intro addr haddr
      have hmem := (hprogrammed ⟨0, [], []⟩).multicast addr haddr
      rw [foldl_rxMessages hstack] at hmem
      obtain ⟨addr', haddr', hvector⟩ := List.mem_map.mp hmem
      exact ⟨addr', haddr', BitVec.eq_of_toNat_eq hvector⟩
    · intro held
      have hunicast := (hprogrammed ⟨0, [], held⟩).unicast
      rwa [foldl_rxMessages hstack] at hunicast
  · rintro ⟨hallowed, hmulticast, hunicast⟩ held
    rw [foldl_rxMessages hstack, if_pos hallowed]
    constructor
    · rfl
    · intro addr haddr
      obtain ⟨addr', haddr', hvector⟩ := hmulticast addr haddr
      exact List.mem_map.mpr ⟨addr', haddr', congrArg BitVec.toNat hvector⟩
    · exact hunicast held.macvlans

/-- A device whose PF answers every message at once with its first word and the success bit.  Its
state says whether the VF holds the mailbox, and is the word. -/
def echoingDevice : Device (Bool × BitVec 32) where
  read d reg :=
    if reg = vfMailbox then (pfstsBit ||| pfackBit ||| (if d.1 then vfuBit else 0#32), d)
    else if reg = vfMbmem then (d.2 ||| msgtypeSuccess ||| msgtypeCts, d)
    else (0#32, d)
  write d reg value :=
    if reg = vfMailbox then (hasBit value vfuBit, d.2)
    else if reg = vfMbmem then (d.1, value)
    else d

/-- A VF with that device that speaks version 1.3. -/
def echoedVf : Vf (Bool × BitVec 32) where
  port := ⟨false, mbxParamsVf .legacy 0#32, (false, 0#32), []⟩
  macType := .mac82599Vf
  apiVersion := .api13
  addr := Vector.replicate 6 0
  permAddr := Vector.replicate 6 0
  mcFilterType := 0
  maxTxQueues := 2
  maxRxQueues := 2
  linkState := false
  speed := 0
  linkUp := false
  pfFeatures := 0
  numTcs := 0
  defaultTc := 0
  reta := []
  rssKey := []

/-- An interface with addresses in both lists. -/
def listening : NetDevice where
  promisc := false
  allmulti := true
  multicast := true
  mc := [Vector.replicate 6 1#8, Vector.replicate 6 3#8, Vector.replicate 6 5#8]
  uc := [Vector.replicate 6 2#8, Vector.replicate 6 4#8]

/-- The PF that held other filters has its filters. -/
theorem listening_programmed :
  Programmed 0 listening
    ((messages (mailLog ((setRxMode (recording echoingDevice) listening
      (List.replicate 15 0xA5A5A5A5#32)).run (recorded echoedVf)).2.port)).foldl
        PfFilters.receive ⟨3, [0x5A5], [Vector.replicate 6 8#8]⟩)
  := (setRxMode_programs_iff echoingDevice (v := echoedVf) rfl (by decide +kernel)).mpr
    ⟨by decide, fun addr haddr => ⟨addr, haddr, rfl⟩, by decide⟩ _

end Ixgbevf.RxMode
