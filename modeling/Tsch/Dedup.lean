import Tsch.Basic
import Mathlib.Data.List.OfFn
import Mathlib.Data.List.GetD

/-!
# Duplicate detection on input

`packet_input` (lines 372-430) parses the frame in the packetbuf, drops it when it is
addressed to another node (only with `TSCH_ADDRESS_FILTER`, off by default), and, with
`TSCH_802154_DUPLICATE_DETECTION` (on by default), compares its `PACKETBUF_ATTR_PACKET_ID`
and sender with every entry of `received_seqnos`.  A frame that matches one is dropped; any
other shifts the array by one, oldest out, stores its key at index 0, and goes up to
`NETSTACK_MAC.input`.

**Results.**
* `duplicateCheck_iff`, `recordSeqno_apply`: the scan and the shift-and-insert loop.
* `received_seqnos_window`: over every sequence of frames, `received_seqnos` holds the keys of
  the last `MAX_SEQNOS` frames passed up, and a frame is passed up iff its key is not in it.
-/

namespace Tsch

/-- `struct seqno`. -/
structure Seqno where
  sender : RimeAddr
  seqno : UInt8
  deriving DecidableEq, Repr

/-- An entry of the zero-initialised static `received_seqnos`. -/
def Seqno.zero : Seqno := ⟨rimeaddrNull, 0⟩

/-- The packetbuf after a successful `NETSTACK_FRAMER.parse()`. -/
structure ParsedFrame where
  packetId : UInt8
  sender : RimeAddr
  receiver : RimeAddr
  deriving DecidableEq, Repr

/-- The `(PACKET_ID, sender)` key a frame is recorded under. -/
def ParsedFrame.key (f : ParsedFrame) : Seqno := ⟨f.sender, f.packetId⟩

theorem Seqno.eq_key_iff (e : Seqno) (f : ParsedFrame) :
    e = f.key ↔ f.packetId = e.seqno ∧ f.sender = e.sender := by
  cases e
  simp [ParsedFrame.key, eq_comm, and_comm]

/-- What `packet_input` is built with and reads. -/
structure InputConfig where
  addressFilter : Bool
  duplicateDetection : Bool
  maxSeqnos : Nat
  nodeAddr : RimeAddr
  maxSeqnos_pos : 0 < maxSeqnos

/-- The defaults on node `node`: no address filter, duplicate detection over 8 entries. -/
def defaultInput (node : RimeAddr) : InputConfig :=
  ⟨false, true, 8, node, by decide⟩

/-! ## `packet_input` -/

/-- The duplicate scan, `for (i = 0; i < MAX_SEQNOS; ++i)`, which sets `duplicate` on every
matching entry and does not stop at the first. -/
def duplicateCheck (k : Nat) (rs : Nat → Seqno) (f : ParsedFrame) : Bool :=
  (List.range k).foldl (fun duplicate i =>
    if f.packetId = (rs i).seqno ∧ f.sender = (rs i).sender then true else duplicate) false

/-- `for (i = MAX_SEQNOS - 1; i > 0; --i) received_seqnos[i] = received_seqnos[i - 1]`. -/
def shiftSeqnos (rs : Nat → Seqno) : Nat → Nat → Seqno
  | 0 => rs
  | i + 1 => shiftSeqnos (Function.update rs (i + 1) (rs i)) i

/-- The shift, then the frame's sequence number and sender stored at index 0. -/
def recordSeqno (k : Nat) (rs : Nat → Seqno) (f : ParsedFrame) : Nat → Seqno :=
  Function.update (shiftSeqnos rs (k - 1)) 0 f.key

variable (cfg : InputConfig)

/-- The `TSCH_ADDRESS_FILTER` test: addressed neither to this node nor to `rimeaddr_null`. -/
def InputConfig.notForUs (f : ParsedFrame) : Bool :=
  cfg.addressFilter && f.receiver != cfg.nodeAddr && f.receiver != rimeaddrNull

/-- `packet_input`: the array it leaves and the frame it passes up, if any. -/
def packetInput (rs : Nat → Seqno) : Option ParsedFrame → (Nat → Seqno) × Option ParsedFrame
  | none => (rs, none)
  | some f =>
    if cfg.notForUs f then (rs, none)
    else if cfg.duplicateDetection then
      if duplicateCheck cfg.maxSeqnos rs f then (rs, none)
      else (recordSeqno cfg.maxSeqnos rs f, some f)
    else (rs, some f)

/-- `received_seqnos`, and the frames passed up so far, most recent first. -/
structure RxState where
  receivedSeqnos : Nat → Seqno
  delivered : List ParsedFrame

def RxState.init : RxState := ⟨fun _ => Seqno.zero, []⟩

def RxState.input (s : RxState) (x : Option ParsedFrame) : RxState :=
  ⟨(packetInput cfg s.receivedSeqnos x).1, (packetInput cfg s.receivedSeqnos x).2.toList ++ s.delivered⟩

/-- `packet_input` on each frame of a sequence. -/
def rxRun (s : RxState) : List (Option ParsedFrame) → RxState
  | [] => s
  | x :: xs => rxRun (s.input cfg x) xs

/-- The `MAX_SEQNOS` entries of `received_seqnos`, index 0 first. -/
def RxState.received (s : RxState) : List Seqno :=
  List.ofFn fun i : Fin cfg.maxSeqnos => s.receivedSeqnos i

/-- The `k` most recent of `keys` (most recent first), padded with zero entries. -/
def seqnoWindow (k : Nat) (keys : List Seqno) : List Seqno :=
  (keys ++ List.replicate k Seqno.zero).take k

/-! ## The two loops -/

theorem duplicateCheck_iff (k : Nat) (rs : Nat → Seqno) (f : ParsedFrame) :
    duplicateCheck k rs f = true ↔ ∃ i < k, rs i = f.key := by
  have hfold : ∀ (l : List Nat) (b : Bool), l.foldl (fun duplicate i =>
      if f.packetId = (rs i).seqno ∧ f.sender = (rs i).sender then true else duplicate) b = true ↔
        b = true ∨ ∃ i ∈ l, rs i = f.key := by
    intro l
    induction l with
    | nil => simp
    | cons i l ih =>
      intro b
      rw [List.foldl_cons, ih]
      by_cases h : f.packetId = (rs i).seqno ∧ f.sender = (rs i).sender <;>
        simp [h, Seqno.eq_key_iff]
  rw [duplicateCheck, hfold]
  simp

theorem shiftSeqnos_apply (rs : Nat → Seqno) (n j : Nat) :
    shiftSeqnos rs n j = if 1 ≤ j ∧ j ≤ n then rs (j - 1) else rs j := by
  induction n generalizing rs with
  | zero => rw [shiftSeqnos, if_neg (by omega)]
  | succ n ih =>
    rw [shiftSeqnos, ih]
    simp only [Function.update_apply]
    split_ifs <;> first | rfl | omega | (congr 1; omega)

/-- Below `MAX_SEQNOS`, the new array holds the key at 0 and the old entry `i - 1` at `i`. -/
theorem recordSeqno_apply {k i : Nat} (hi : i < k) (rs : Nat → Seqno) (f : ParsedFrame) :
    recordSeqno k rs f i = if i = 0 then f.key else rs (i - 1) := by
  rw [recordSeqno, Function.update_apply, shiftSeqnos_apply]
  split_ifs <;> first | rfl | omega

/-! ## One frame -/

/-- With duplicate detection on, `packet_input` either passes nothing up and keeps the
array, or passes up an accepted frame that matches no entry and records it. -/
theorem packetInput_cases (hdd : cfg.duplicateDetection = true) (rs : Nat → Seqno)
    (x : Option ParsedFrame) :
    packetInput cfg rs x = (rs, none) ∨
      ∃ f, x = some f ∧ cfg.notForUs f = false ∧ duplicateCheck cfg.maxSeqnos rs f = false ∧
        packetInput cfg rs x = (recordSeqno cfg.maxSeqnos rs f, some f) := by
  cases x with
  | none => exact .inl rfl
  | some f =>
    cases hn : cfg.notForUs f
    · cases hd : duplicateCheck cfg.maxSeqnos rs f
      · exact .inr ⟨f, rfl, hn, hd, by simp [packetInput, hn, hd, hdd]⟩
      · exact .inl (by simp [packetInput, hn, hd, hdd])
    · exact .inl (by simp [packetInput, hn])

theorem packetInput_keeps_of_none (rs : Nat → Seqno) (x : Option ParsedFrame)
    (h : (packetInput cfg rs x).2 = none) : (packetInput cfg rs x).1 = rs := by
  cases x with
  | none => rfl
  | some f =>
    simp only [packetInput] at h ⊢
    split_ifs at h ⊢ <;> simp_all

/-- An accepted frame is passed up iff the scan finds no entry with its key. -/
theorem packetInput_passes_iff (hdd : cfg.duplicateDetection = true) (rs : Nat → Seqno)
    {f : ParsedFrame} (hf : cfg.notForUs f = false) :
    (packetInput cfg rs (some f)).2 = some f ↔ ¬∃ i < cfg.maxSeqnos, rs i = f.key := by
  rw [← duplicateCheck_iff]
  cases hd : duplicateCheck cfg.maxSeqnos rs f <;> simp [packetInput, hf, hdd, hd]

/-! ## Every sequence of frames -/

/-- `received_seqnos` below `k` is the list of keys, most recent first, then zero entries. -/
def WindowInv (k : Nat) (rs : Nat → Seqno) (keys : List Seqno) : Prop :=
  ∀ i < k, rs i = keys.getD i Seqno.zero

theorem windowInv_record {k : Nat} {rs : Nat → Seqno} {keys : List Seqno}
    (h : WindowInv k rs keys) (f : ParsedFrame) :
    WindowInv k (recordSeqno k rs f) (f.key :: keys) := by
  intro i hi
  rw [recordSeqno_apply hi]
  split_ifs with h0
  · subst h0
    rfl
  · obtain ⟨j, rfl⟩ : ∃ j, i = j + 1 := ⟨i - 1, by omega⟩
    simpa using h j (by omega)

/-- The step: one call of `packet_input` keeps the window. -/
theorem input_windowInv (hdd : cfg.duplicateDetection = true) {s : RxState}
    (h : WindowInv cfg.maxSeqnos s.receivedSeqnos (s.delivered.map ParsedFrame.key))
    (x : Option ParsedFrame) :
    WindowInv cfg.maxSeqnos (s.input cfg x).receivedSeqnos
      ((s.input cfg x).delivered.map ParsedFrame.key) := by
  rcases packetInput_cases cfg hdd s.receivedSeqnos x with hp | ⟨f, -, -, -, hp⟩
  · simpa [RxState.input, hp] using h
  · simpa [RxState.input, hp] using windowInv_record h f

/-- The run: every sequence of frames from any state in the window keeps it. -/
theorem rxRun_windowInv (hdd : cfg.duplicateDetection = true) (xs : List (Option ParsedFrame)) :
    ∀ {s : RxState}, WindowInv cfg.maxSeqnos s.receivedSeqnos (s.delivered.map ParsedFrame.key) →
      WindowInv cfg.maxSeqnos (rxRun cfg s xs).receivedSeqnos
        ((rxRun cfg s xs).delivered.map ParsedFrame.key) := by
  induction xs with
  | nil => exact id
  | cons x xs ih => exact fun h => ih (input_windowInv cfg hdd h x)

theorem received_eq_seqnoWindow {s : RxState} {keys : List Seqno}
    (h : WindowInv cfg.maxSeqnos s.receivedSeqnos keys) :
    s.received cfg = seqnoWindow cfg.maxSeqnos keys := by
  apply List.ext_getElem
  · simp [RxState.received, seqnoWindow]
  · intro i h1 _
    have hi : i < cfg.maxSeqnos := by simpa [RxState.received] using h1
    simp only [RxState.received, List.getElem_ofFn, seqnoWindow, List.getElem_take]
    rw [h i hi, ← List.getD_eq_getElem _ Seqno.zero]
    by_cases hk : i < keys.length
    · rw [List.getD_append _ _ _ _ hk]
    · rw [List.getD_append_right _ _ _ _ (by omega), List.getD_eq_default _ _ (by omega),
        List.getD_eq_getElem?_getD, List.getElem?_getD_replicate_default_eq]

theorem mem_received_iff (s : RxState) (e : Seqno) :
    e ∈ s.received cfg ↔ ∃ i < cfg.maxSeqnos, s.receivedSeqnos i = e := by
  simp [RxState.received, List.mem_ofFn, Fin.exists_iff]

/-- With duplicate detection on, after every sequence of frames: `received_seqnos` is the keys
of the last `MAX_SEQNOS` frames passed up, most recent first, padded with zero entries; the
next accepted frame is passed up iff its key is not in it; and a frame not passed up leaves it
unchanged. -/
theorem received_seqnos_window (hdd : cfg.duplicateDetection = true)
    (xs : List (Option ParsedFrame)) :
    (rxRun cfg .init xs).received cfg =
        seqnoWindow cfg.maxSeqnos ((rxRun cfg .init xs).delivered.map ParsedFrame.key) ∧
      (∀ f, cfg.notForUs f = false →
        ((packetInput cfg (rxRun cfg .init xs).receivedSeqnos (some f)).2 = some f ↔
          f.key ∉ (rxRun cfg .init xs).received cfg)) ∧
      (∀ x, (packetInput cfg (rxRun cfg .init xs).receivedSeqnos x).2 = none →
        (packetInput cfg (rxRun cfg .init xs).receivedSeqnos x).1 =
          (rxRun cfg .init xs).receivedSeqnos) :=
  ⟨received_eq_seqnoWindow cfg (rxRun_windowInv cfg hdd xs fun _ _ => rfl),
    fun _ hf => by rw [packetInput_passes_iff cfg hdd _ hf, mem_received_iff],
    packetInput_keeps_of_none cfg _⟩

def replayFrame : ParsedFrame :=
  ⟨1, cellAddress1, cellAddress2⟩

/-- On `cellAddress2` with the defaults, after the frame, a failed parse and the same frame
again. -/
theorem received_seqnos_window_replay :
    (defaultInput cellAddress2).duplicateDetection = true ∧
      ((rxRun (defaultInput cellAddress2) .init [some replayFrame, none, some replayFrame]).received
          (defaultInput cellAddress2) =
        seqnoWindow (defaultInput cellAddress2).maxSeqnos
          ((rxRun (defaultInput cellAddress2) .init
            [some replayFrame, none, some replayFrame]).delivered.map ParsedFrame.key) ∧
      (∀ f, (defaultInput cellAddress2).notForUs f = false →
        ((packetInput (defaultInput cellAddress2) (rxRun (defaultInput cellAddress2) .init
            [some replayFrame, none, some replayFrame]).receivedSeqnos (some f)).2 = some f ↔
          f.key ∉ (rxRun (defaultInput cellAddress2) .init
            [some replayFrame, none, some replayFrame]).received (defaultInput cellAddress2))) ∧
      (∀ x, (packetInput (defaultInput cellAddress2) (rxRun (defaultInput cellAddress2) .init
            [some replayFrame, none, some replayFrame]).receivedSeqnos x).2 = none →
        (packetInput (defaultInput cellAddress2) (rxRun (defaultInput cellAddress2) .init
            [some replayFrame, none, some replayFrame]).receivedSeqnos x).1 =
          (rxRun (defaultInput cellAddress2) .init
            [some replayFrame, none, some replayFrame]).receivedSeqnos)) :=
  ⟨rfl, received_seqnos_window (defaultInput cellAddress2) rfl _⟩

example :
    (rxRun (defaultInput cellAddress2) .init [some replayFrame, none, some replayFrame]).delivered =
      [replayFrame] := by
  decide

end Tsch
