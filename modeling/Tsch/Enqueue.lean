import Tsch.Fifo
import Tsch.Table

/-!
# When `send_packet` takes a packet

`send_one_packet` (lines 307-343) returns 0 when the framer fails, when the receiver has no
queue and `add_queue` finds the table full, or when `add_packet_to_queue` finds the
receiver's ring full; what `queuebuf_new_from_packetbuf` returned plays no part.
`send_packet` (lines 345-349) drops that result, so a refused packet is gone without a call
of the sent callback.

**Results.**
* `Store.sendOnePacket_accepts_iff`: over well-formed rings, the three conditions under
  which a packet is accepted.
* `Store.sendOnePacket_accepted`: the accepted log grows by the receiver exactly when the
  packet is accepted.
* `send_packet_accepted_iff`: in every reachable state a `send_packet` event posts nothing
  and calls no sent callback; the packet is accepted, and appended to its receiver's ring
  with the next uid, exactly when the framer builds its frame, the receiver has a queue or
  the table has room for one, and the receiver's ring holds fewer than
  `NBR_BUFFER_SIZE - 1` packets; a refused packet enters no ring and is not accepted.
-/

namespace Tsch

namespace Store

open NeighborQueue

variable {B : BufferSize} {s : Store}

/-- For an address with a queue, `add_packet_to_queue` answers whether its ring has room. -/
theorem addPacketToQueue_fst (hs : RingsOk B s) {a : RimeAddr} {q : NeighborQueue}
    (hq : s.neighborQueueFromAddr a = some q) (sent ptr : Nat) (pkt : Option QueueBuf) :
    (s.addPacketToQueue B sent ptr a pkt).1 = decide ((s.ringUids B a).length < B.N - 1) := by
  have hlen : (s.ringUids B a).length = count B q := by
    simp [ringUids, ringOf, hq, length_contents (hs.wf a q hq)]
  rw [hlen]
  simp only [addPacketToQueue, hq]
  exact addPacket_fst (hs.wf a q hq) _ _ _ _

theorem addPacketToQueue_accepted (s : Store) (sent ptr : Nat) (a : RimeAddr)
    (pkt : Option QueueBuf) :
    (s.addPacketToQueue B sent ptr a pkt).2.accepted =
      if (s.addPacketToQueue B sent ptr a pkt).1 then s.accepted ++ [a] else s.accepted := by
  unfold addPacketToQueue
  split <;> rfl

/-- For an address without a queue, `add_queue` allocates one exactly when the table has
room. -/
theorem addQueue_fst_eq_some {a : RimeAddr} (hn : s.neighborQueueFromAddr a = none) (k : Nat) :
    (s.addQueue B k a).1 = some a ↔ s.keys.length < k := by
  rw [addQueue_of_none hn]
  split_ifs with hl <;> simp [keys, hl]

/-- `send_one_packet` over well-formed rings accepts a packet exactly when the framer builds
its frame, the receiver has a queue or the table has room, and the receiver's ring has
room. -/
theorem sendOnePacket_accepts_iff (hs : RingsOk B s) (k : Nat)
    (framer : Packetbuf → Option (List UInt8)) (sent ptr : Nat) (pb : Packetbuf)
    (alloc : Option Nat) :
    (s.sendOnePacket B k framer sent ptr pb alloc).1 = true ↔
      (framer { pb with
          macAck := if pb.receiver ≠ rimeaddrNull then true else pb.macAck
          macSeqno := nextDsn s.dsn }).isSome = true ∧
        (pb.receiver ∈ s.keys ∨ s.keys.length < k) ∧
        (s.ringUids B pb.receiver).length < B.N - 1 := by
  have hs₀ := (show SameRings s { s with dsn := nextDsn s.dsn } from
    ⟨rfl, fun _ => rfl, rfl⟩).rings_ok hs
  unfold sendOnePacket
  dsimp only
  split
  · rename_i hf
    rw [hf]
    simp
  · rename_i frame hf
    simp only [hf, Option.isSome_some, true_and]
    split
    · -- the receiver has a queue
      rename_i q hq
      have hmem : pb.receiver ∈ s.keys :=
        lookup_isSome_iff_mem_keys.1 (Option.isSome_iff_exists.2 ⟨q, hq⟩)
      rw [addPacketToQueue_fst hs₀ hq]
      simp only [hmem, true_or, true_and, decide_eq_true_eq]
      exact Iff.rfl
    · -- a new receiver: `add_queue`, then an empty ring
      rename_i hn
      have hn' : s.neighborQueueFromAddr pb.receiver = none := hn
      have hnm : pb.receiver ∉ s.keys := lookup_eq_none_iff.1 hn'
      have hempty : (s.ringUids B pb.receiver).length = 0 := by simp [ringUids, ringOf, hn']
      simp only [hnm, false_or, hempty]
      obtain ⟨hs₁, -, -, hadd⟩ := addQueue_rings hs₀ k hn
      have hroom : (addQueue B k { s with dsn := nextDsn s.dsn } pb.receiver).1 =
          some pb.receiver ↔ s.keys.length < k := addQueue_fst_eq_some hn k
      cases hA : addQueue B k { s with dsn := nextDsn s.dsn } pb.receiver with
      | mk o s₁ =>
          rw [hA] at hs₁ hadd hroom
          rcases hadd with ⟨rfl, -⟩ | ⟨rfl, hlook⟩
          · simp only at hroom
            simp [← hroom]
          · rw [addPacketToQueue_fst hs₁ hlook]
            simp only at hroom
            simp [← hroom, ringUids, ringOf, hlook, contents_init_zero]

/-- The accepted log grows by the receiver exactly when `send_one_packet` accepts. -/
theorem sendOnePacket_accepted (k : Nat) (framer : Packetbuf → Option (List UInt8))
    (sent ptr : Nat) (pb : Packetbuf) (alloc : Option Nat) :
    (s.sendOnePacket B k framer sent ptr pb alloc).2.accepted =
      if (s.sendOnePacket B k framer sent ptr pb alloc).1 then s.accepted ++ [pb.receiver]
      else s.accepted := by
  unfold sendOnePacket
  dsimp only
  split
  · rfl
  · split
    · exact addPacketToQueue_accepted _ _ _ _ _
    · have hacc : (addQueue B k { s with dsn := nextDsn s.dsn } pb.receiver).2.accepted =
          s.accepted := by
        unfold addQueue
        split
        · rfl
        · split <;> rfl
      split <;> rename_i heq <;> rw [heq] at hacc
      · exact hacc
      · rw [addPacketToQueue_accepted, hacc]

end Store

namespace Mac

open Store

variable {cfg : Config} {m : Mac}

variable (cfg) in
/-- In every reachable state a `send_packet` event has a successor, which posts no event and
calls no sent callback.  The packet is accepted, and the receiver's ring grows by it,
exactly when the framer builds its frame, the receiver has a queue or the table has room
for one, and the receiver's ring holds fewer than `NBR_BUFFER_SIZE - 1` packets, whatever
the allocator returned.  A refused packet enters no ring and is not accepted. -/
theorem send_packet_accepted_iff (hm : Reachable cfg m) (sent ptr : Nat) (pb : Packetbuf)
    (alloc : Option Nat) :
    ∃ m', step cfg m (.sendPacket sent ptr pb alloc) = some m' ∧
      m'.events = m.events ∧ m'.sentCalls = m.sentCalls ∧
      (m'.store.accepted = m.store.accepted ++ [pb.receiver] ↔
        (cfg.framer { pb with
            macAck := if pb.receiver ≠ rimeaddrNull then true else pb.macAck
            macSeqno := nextDsn m.store.dsn }).isSome = true ∧
          (pb.receiver ∈ m.store.keys ∨ m.store.keys.length < cfg.maxNeighbors) ∧
          (m.store.ringUids cfg.B pb.receiver).length < cfg.B.N - 1) ∧
      (m'.store.accepted = m.store.accepted ++ [pb.receiver] →
        m'.store.ringUids cfg.B pb.receiver =
          m.store.ringUids cfg.B pb.receiver ++ [m.store.accepted.length]) ∧
      (m'.store.accepted ≠ m.store.accepted ++ [pb.receiver] →
        m'.store.accepted = m.store.accepted ∧
          ∀ a, m'.store.ringUids cfg.B a = m.store.ringUids cfg.B a) ∧
      ∀ a, a ≠ pb.receiver → m'.store.ringUids cfg.B a = m.store.ringUids cfg.B a := by
  have hs : RingsOk cfg.B m.store := (reachable_fifoInv hm).rings
  have hacc := sendOnePacket_accepted (B := cfg.B) (s := m.store) cfg.maxNeighbors cfg.framer
    sent ptr pb alloc
  obtain ⟨-, -, hother, hcases⟩ := sendOnePacket_rings hs cfg.maxNeighbors cfg.framer sent ptr pb
    alloc rfl
  have hother' : ∀ a, a ≠ pb.receiver → _ := fun a ha => congrArg (fun r => (r.getD []).map
    TschPacket.uid) (hother a ha)
  have hgrow : (m.store.sendOnePacket cfg.B cfg.maxNeighbors cfg.framer sent ptr pb alloc).2.accepted =
      m.store.accepted ++ [pb.receiver] ↔
        (m.store.sendOnePacket cfg.B cfg.maxNeighbors cfg.framer sent ptr pb alloc).1 = true := by
    rw [hacc]
    split <;> rename_i hb <;> simp [hb]
  refine ⟨_, rfl, rfl, rfl, hgrow.trans (sendOnePacket_accepts_iff hs _ _ _ _ _ _), fun h => ?_,
    fun h => ?_, hother'⟩
  · -- accepted: the new packet carries the next uid
    rcases hcases with ⟨hacc', -⟩ | ⟨-, pkt, -, hring⟩
    · exact absurd (hacc'.symm.trans h) (by simp)
    · simp [ringUids, hring, NeighborQueue.newPacket]
  · -- refused: no ring changes, at most the receiver gets an empty one
    rcases hcases with ⟨hacc', hring⟩ | ⟨hacc', -⟩
    · refine ⟨hacc', fun a => ?_⟩
      by_cases ha : a = pb.receiver
      · subst ha
        rcases hring with hring | ⟨h0, h1⟩
        · simp only [ringUids, hring]
        · simp [ringUids, h0, h1]
      · exact hother' a ha
    · exact absurd hacc' h

/-- Seven packets for `cellAddress1` fill its ring of eight slots: the shipped driver refuses
the eighth, leaves every ring as it was and calls no sent callback for it. -/
theorem eighth_packet_refused :
    (run shipped (init shipped 0)
        (List.replicate 7 (.sendPacket 0 0 ⟨cellAddress1, [1, 2, 3], false, 0⟩ (some 0)))).map
        (fun m => (m.store.ringUids shipped.B cellAddress1).length) = some 7 ∧
      ∀ m, run shipped (init shipped 0)
          (List.replicate 7 (.sendPacket 0 0 ⟨cellAddress1, [1, 2, 3], false, 0⟩ (some 0))) =
            some m →
        ∃ m', step shipped m (.sendPacket 0 0 ⟨cellAddress1, [1, 2, 3], false, 0⟩ (some 0)) =
            some m' ∧ m'.events = m.events ∧ m'.sentCalls = m.sentCalls ∧
          m'.store.accepted = m.store.accepted ∧
          ∀ a, m'.store.ringUids shipped.B a = m.store.ringUids shipped.B a := by
  have h7 : (run shipped (init shipped 0)
      (List.replicate 7 (.sendPacket 0 0 ⟨cellAddress1, [1, 2, 3], false, 0⟩ (some 0)))).map
      (fun m => (m.store.ringUids shipped.B cellAddress1).length) = some 7 := by decide
  refine ⟨h7, fun m hm => ?_⟩
  obtain ⟨m', hs, hev, hsc, hiff, -, href, -⟩ := send_packet_accepted_iff shipped
    (reachable_of_run shipped (.init 0) hm) 0 0 ⟨cellAddress1, [1, 2, 3], false, 0⟩ (some 0)
  have hlen : (m.store.ringUids shipped.B cellAddress1).length = 7 := by
    simpa only [hm, Option.map_some', Option.some.injEq] using h7
  have hfull : m'.store.accepted ≠ m.store.accepted ++ [cellAddress1] := fun h => by
    have hroom := (hiff.1 h).2.2
    rw [hlen] at hroom
    exact absurd hroom (by decide)
  exact ⟨m', hs, hev, hsc, href hfull⟩

end Mac

end Tsch
