import Mathlib.Data.List.Nodup
import VirtualPad.Proofs.Address.Socket
import VirtualPad.Proofs.Config.Line
import VirtualPad.Proofs.Config.Range
import VirtualPad.Proofs.Text.Utf8
import VirtualPad.Settings.Load
import VirtualPad.Settings.Write

/-!
# Settings from their lines

A file of some of the lines that settings are written in, each at most once and in any order, gives
these fields their values and leaves the others standard. What was loaded from any file can be
written and is loaded again.
-/
namespace VirtualPad.Settings
open Config (Document Entry Node)

/-- Each number fits into the whole numbers of a document. -/
structure Storable (s : Settings) : Prop where
  pollInterval : s.pollInterval < 0x8000000000000000
  keepaliveInterval : s.keepaliveInterval < 0x8000000000000000
  discoveryTimeout : s.discoveryTimeout < 0x8000000000000000
  shutdownTimeout : s.shutdownTimeout < 0x8000000000000000
  queueCapacity : s.queueCapacity < 0x8000000000000000

def SameAt (s t : Settings) : Field → Prop
  | .bindAddress => s.bindAddress = t.bindAddress
  | .peerAddress => s.peerAddress = t.peerAddress
  | .receiveMode => s.receiveMode = t.receiveMode
  | .pollInterval => s.pollInterval = t.pollInterval
  | .keepaliveInterval => s.keepaliveInterval = t.keepaliveInterval
  | .discoveryTimeout => s.discoveryTimeout = t.discoveryTimeout
  | .shutdownTimeout => s.shutdownTimeout = t.shutdownTimeout
  | .queueCapacity => s.queueCapacity = t.queueCapacity

variable {s t : Settings} {f g : Field} {fields : List Field}

theorem SameAt.refl (s : Settings) (f : Field) : s.SameAt s f := by
  cases f <;> exact rfl

theorem eq_of_sameAt (h : ∀ f, s.SameAt t f) : s = t := by
  obtain ⟨⟩ := s
  obtain ⟨⟩ := t
  rw [mk.injEq]
  exact ⟨h .bindAddress, h .peerAddress, h .receiveMode, h .pollInterval, h .keepaliveInterval,
    h .discoveryTimeout, h .shutdownTimeout, h .queueCapacity⟩

/-! ## Lines as entries -/

def node (s : Settings) : Field → Node
  | .bindAddress => .text (.ofList s.bindAddress.text)
  | .peerAddress => .text (.ofList s.peerAddress.text)
  | .receiveMode => .text s.receiveMode.name
  | .pollInterval => .integer s.pollInterval
  | .keepaliveInterval => .integer s.keepaliveInterval
  | .discoveryTimeout => .integer s.discoveryTimeout
  | .shutdownTimeout => .integer s.shutdownTimeout
  | .queueCapacity => .integer s.queueCapacity

def entry (s : Settings) (f : Field) : Entry := ⟨f.key, s.value f, s.node f⟩

theorem key_ne_nil (f : Field) : f.key.toList ≠ [] := by
  cases f <;> decide

theorem isBareKeyChar_key (f : Field) : ∀ c ∈ f.key.toList, Config.isBareKeyChar c = true := by
  apply List.all_eq_true.1
  cases f <;> decide

theorem key_injective : Function.Injective Field.key := by
  intro f g h
  cases f <;> cases g <;> first | rfl | exact absurd h (by decide)

theorem readable_address (f : Field) (a : SocketAddress) :
    Entry.Readable ⟨f.key, quoted a.text, .text (.ofList a.text)⟩ := by
  have halphabet : ∀ c ∈ SocketAddress.alphabet, Config.isUnescaped c = true :=
    List.all_eq_true.1 (by decide)
  exact Entry.readable_quoted (key_ne_nil f) (isBareKeyChar_key f)
    (fun c hc => halphabet c (a.text_subset hc)) a.text_ne_nil

theorem readable_mode (f : Field) (m : ReceiveMode) :
    Entry.Readable ⟨f.key, quoted m.name.toList, .text m.name⟩ := by
  have hletters : ∀ c ∈ m.name.toList, Config.isUnescaped c = true := by
    apply List.all_eq_true.1
    cases m <;> decide
  have hne : m.name.toList ≠ [] := by cases m <;> decide
  have hreadable := Entry.readable_quoted (key_ne_nil f) (isBareKeyChar_key f) hletters hne
  rwa [String.ofList_toList] at hreadable

theorem Storable.readable_entry (h : s.Storable) (f : Field) : (s.entry f).Readable := by
  have hnumber {n : Nat} (hn : n < 0x8000000000000000) :
      Entry.Readable ⟨f.key, Nat.toDigits 10 n, .integer n⟩ :=
    Entry.readable_toDigits (key_ne_nil f) (isBareKeyChar_key f) hn
  cases f with
  | bindAddress => exact readable_address .bindAddress s.bindAddress
  | peerAddress => exact readable_address .peerAddress s.peerAddress
  | receiveMode => exact readable_mode .receiveMode s.receiveMode
  | pollInterval => exact hnumber h.pollInterval
  | keepaliveInterval => exact hnumber h.keepaliveInterval
  | discoveryTimeout => exact hnumber h.discoveryTimeout
  | shutdownTimeout => exact hnumber h.shutdownTimeout
  | queueCapacity => exact hnumber h.queueCapacity

theorem find?_key (fields : List Field) (f : Field) :
    (fields.find? fun g => g.key = f.key) = if f ∈ fields then some f else none := by
  induction fields with
  | nil => rfl
  | cons g fields ih =>
    have hkey : g.key = f.key ↔ f = g := ⟨fun h => (key_injective h).symm, fun h => h ▸ rfl⟩
    simp only [List.find?_cons, hkey, ih, List.mem_cons]
    by_cases hg : f = g <;> simp [hg]

theorem Storable.exists_document (h : s.Storable) (hn : fields.Nodup) :
    ∃ d, Document.ofText? (.ofList (s.lines fields)) = some d ∧
      ∀ f, d.node? [.key f.key] = if f ∈ fields then some (s.node f) else none := by
  have hlines : s.lines fields = (fields.map s.entry).flatMap Entry.line := by
    rw [List.flatMap_map]
    rfl
  have hreadable : ∀ e ∈ fields.map s.entry, e.Readable :=
    List.forall_mem_map.2 fun f _ => h.readable_entry f
  have hkeys : ((fields.map s.entry).map (·.key)).Nodup := by
    rw [List.map_map]
    exact List.Nodup.map key_injective hn
  rw [hlines]
  refine ⟨_, Entry.ofText?_lines hreadable hkeys, fun f => ?_⟩
  rw [Entry.node?_lines, List.find?_map]
  change ((fields.find? fun g => g.key = f.key).map s.entry).map (·.node) = _
  rw [find?_key]
  split_ifs <;> rfl

/-! ## Fields from their nodes -/

def copy (t s : Settings) : Field → Settings
  | .bindAddress => { t with bindAddress := s.bindAddress }
  | .peerAddress => { t with peerAddress := s.peerAddress }
  | .receiveMode => { t with receiveMode := s.receiveMode }
  | .pollInterval => { t with pollInterval := s.pollInterval }
  | .keepaliveInterval => { t with keepaliveInterval := s.keepaliveInterval }
  | .discoveryTimeout => { t with discoveryTimeout := s.discoveryTimeout }
  | .shutdownTimeout => { t with shutdownTimeout := s.shutdownTimeout }
  | .queueCapacity => { t with queueCapacity := s.queueCapacity }

theorem sameAt_copy {r : Settings} :
    (t.copy s g).SameAt r f ↔ (if f = g then s else t).SameAt r f := by
  cases f <;> cases g <;> exact Iff.rfl

theorem address?_text (a : SocketAddress) : address? (.text (.ofList a.text)) = some a := by
  rw [address?, String.toList_ofList, SocketAddress.ofText?_text]

theorem natural?_natCast (n : Nat) : natural? (.integer n) = some n := by
  rw [natural?, if_pos (Int.natCast_nonneg n), Int.toNat_natCast]

theorem set?_node (d : Document) (t s : Settings) (f : Field) :
    t.set? d (s.node f) f = some (t.copy s f) := by
  cases f with
  | bindAddress | peerAddress => rw [node, set?, address?_text, Option.map_some, copy]
  | receiveMode => rw [node, set?, mode?, ReceiveMode.ofName?_name, Option.map_some, copy]
  | pollInterval | keepaliveInterval | discoveryTimeout | shutdownTimeout | queueCapacity =>
    rw [node, set?, natural?_natCast, Option.map_some, copy]

def overwrite (s : Settings) (fields : List Field) (t : Settings) (f : Field) : Settings :=
  if f ∈ fields then t.copy s f else t

theorem setFrom?_eq_overwrite {d : Document} (t : Settings)
    (hd : d.node? [.key f.key] = if f ∈ fields then some (s.node f) else none) :
    setFrom? d t f = some (s.overwrite fields t f) := by
  rw [setFrom?, hd, overwrite]
  split_ifs with hf
  · exact set?_node d t s f
  · rfl

theorem sameAt_overwrite {r : Settings} :
    (s.overwrite fields t g).SameAt r f ↔ (if f = g ∧ f ∈ fields then s else t).SameAt r f := by
  by_cases hg : g ∈ fields
  · rw [overwrite, if_pos hg, sameAt_copy]
    by_cases hf : f = g
    · rw [if_pos hf, if_pos ⟨hf, hf ▸ hg⟩]
    · rw [if_neg hf, if_neg fun h => hf h.1]
  · have hboth : ¬(f = g ∧ f ∈ fields) := fun h => hg (h.1 ▸ h.2)
    rw [overwrite, if_neg hg, if_neg hboth]

theorem sameAt_foldl_overwrite {r : Settings} (order : List Field) :
    (order.foldl (s.overwrite fields) t).SameAt r f ↔
      (if f ∈ order ∧ f ∈ fields then s else t).SameAt r f := by
  induction order generalizing t with
  | nil => rw [List.foldl_nil, if_neg fun h => absurd h.1 List.not_mem_nil]
  | cons g order ih =>
    have hcons : f ∈ g :: order ∧ f ∈ fields ↔
        (f = g ∧ f ∈ fields) ∨ f ∈ order ∧ f ∈ fields := by
      rw [List.mem_cons, or_and_right]
    rw [List.foldl_cons, ih]
    by_cases ho : f ∈ order ∧ f ∈ fields
    · rw [if_pos ho, if_pos (hcons.2 (.inr ho))]
    · rw [if_neg ho, sameAt_overwrite]
      by_cases hg : f = g ∧ f ∈ fields
      · rw [if_pos hg, if_pos (hcons.2 (.inl hg))]
      · rw [if_neg hg, if_neg fun h => (hcons.1 h).elim hg ho]

theorem ofDocument?_eq_foldl {d : Document}
    (hd : ∀ f, d.node? [.key f.key] = if f ∈ fields then some (s.node f) else none) :
    ofDocument? d = some (Field.all.foldl (s.overwrite fields) standard) := by
  -- No step fails, so that the run is the plain fold of its steps.
  have hstep : setFrom? d = fun t f => some (s.overwrite fields t f) := by
    funext t f
    exact setFrom?_eq_overwrite t (hd f)
  rw [ofDocument?, hstep]
  exact List.foldlM_pure

theorem Storable.load_lines_eq (h : s.Storable) (hn : fields.Nodup) :
    load (some (Utf8.encode (.ofList (s.lines fields)))) =
      .ok (Field.all.foldl (s.overwrite fields) standard) := by
  obtain ⟨d, htext, hd⟩ := h.exists_document hn
  simp only [load, Utf8.decode?_encode, ofText?, htext, ofDocument?_eq_foldl hd]

/-! ## What was loaded can be written -/

theorem storable_standard : standard.Storable := by
  constructor <;> decide

theorem natural?_lt {node : Node} {n : Nat} (h : node.InRange) (hn : natural? node = some n) :
    n < 0x8000000000000000 := by
  cases node with
  | integer i =>
    have hi : i < 0x8000000000000000 := h.2
    rw [natural?] at hn
    split at hn
    · cases hn
      omega
    · cases hn
  | _ => cases hn

theorem Storable.set? {d : Document} {node : Node} (h : s.Storable) (hnode : node.InRange)
    (ht : s.set? d node f = some t) : t.Storable := by
  cases f with
  | bindAddress | peerAddress | receiveMode =>
    obtain ⟨_, _, rfl⟩ := Option.map_eq_some_iff.1 ht
    exact { h with }
  | pollInterval =>
    obtain ⟨_, hn, rfl⟩ := Option.map_eq_some_iff.1 ht
    exact { h with pollInterval := natural?_lt hnode hn }
  | keepaliveInterval =>
    obtain ⟨_, hn, rfl⟩ := Option.map_eq_some_iff.1 ht
    exact { h with keepaliveInterval := natural?_lt hnode hn }
  | discoveryTimeout =>
    obtain ⟨_, hn, rfl⟩ := Option.map_eq_some_iff.1 ht
    exact { h with discoveryTimeout := natural?_lt hnode hn }
  | shutdownTimeout =>
    obtain ⟨_, hn, rfl⟩ := Option.map_eq_some_iff.1 ht
    exact { h with shutdownTimeout := natural?_lt hnode hn }
  | queueCapacity =>
    obtain ⟨_, hn, rfl⟩ := Option.map_eq_some_iff.1 ht
    exact { h with queueCapacity := natural?_lt hnode hn }

theorem Storable.setFrom? {d : Document} (h : s.Storable) (hd : d.InRange)
    (ht : setFrom? d s f = some t) : t.Storable := by
  rw [Settings.setFrom?] at ht
  split at ht
  · cases ht
    exact h
  · next hnode => exact h.set? (hd.node? hnode) ht

theorem Storable.foldlM {d : Document} (h : s.Storable) (hd : d.InRange)
    (ht : fields.foldlM (Settings.setFrom? d) s = some t) : t.Storable := by
  induction fields generalizing s with
  | nil =>
    cases ht
    exact h
  | cons f fields ih =>
    rw [List.foldlM_cons] at ht
    obtain ⟨u, hu, ht⟩ := Option.bind_eq_some_iff.1 ht
    exact ih (h.setFrom? hd hu) ht

theorem storable_of_ofText? {content : String} (h : ofText? content = some t) : t.Storable := by
  rw [ofText?] at h
  split at h
  · cases h
  · next hd => exact storable_standard.foldlM (Document.ofText?_inRange hd) h

theorem storable_of_load {file : Option (List UInt8)} (h : load file = .ok t) : t.Storable := by
  cases file with
  | none =>
    cases h
    exact storable_standard
  | some bytes =>
    rw [load] at h
    split at h
    · cases h
    · split at h
      · cases h
      · next hs =>
        cases h
        exact storable_of_ofText? hs

/-! ## The round trip -/

theorem Storable.load_text (h : s.Storable) : load (some (Utf8.encode s.text)) = .ok s := by
  have hall : Field.all.Nodup := by decide
  rw [text, h.load_lines_eq hall]
  refine congrArg Except.ok (eq_of_sameAt fun f => ?_)
  rw [sameAt_foldl_overwrite, if_pos ⟨f.mem_all, f.mem_all⟩]
  exact .refl s f

/-- Any lines of settings, each at most once, give back their own fields and leave the others
standard. All of them give back the settings, and so what was loaded from a file is loaded again
once it is written. -/
theorem load_lines :
    (∀ s : Settings, s.Storable →
      (∀ fields : List Field, fields.Nodup →
        ∃ t, load (some (Utf8.encode (.ofList (s.lines fields)))) = .ok t ∧
          (∀ f ∈ fields, t.SameAt s f) ∧ ∀ f ∉ fields, t.SameAt standard f) ∧
      load (some (Utf8.encode s.text)) = .ok s) ∧
    ∀ (file : Option (List UInt8)) (t : Settings), load file = .ok t →
      load (some (Utf8.encode t.text)) = .ok t := by
  refine ⟨fun s h => ⟨fun fields hn => ⟨_, h.load_lines_eq hn, fun f hf => ?_, fun f hf => ?_⟩,
    h.load_text⟩, fun _ _ h => (storable_of_load h).load_text⟩
  · rw [sameAt_foldl_overwrite, if_pos ⟨f.mem_all, hf⟩]
    exact .refl s f
  · rw [sameAt_foldl_overwrite, if_neg fun h => hf h.2]
    exact .refl standard f

def farHost : Settings where
  bindAddress := .v6 ⟨[0xFE80, 0, 0, 1, 0, 0, 0, 2], rfl⟩ 3 65535
  peerAddress := .v6 ⟨[0, 0, 0, 0, 0, 0xFFFF, 0x0A00, 0x0001], rfl⟩ 0 7947
  receiveMode := .blockingTimeout
  pollInterval := 0
  keepaliveInterval := 1
  discoveryTimeout := 2
  shutdownTimeout := 3
  queueCapacity := 0x7FFFFFFFFFFFFFFF

theorem load_lines_farHost :
    farHost.Storable ∧
      load (some (Utf8.encode ("event_queue_capacity = 9223372036854775807\n" ++
        "receive_mode = \x22BlockingTimeout\x22\n" ++
        "peer_addr = \x22[::ffff:10.0.0.1]:7947\x22\n" ++
        "bind_addr = \x22[fe80:0:0:1::2%3]:65535\x22\n"))) =
      .ok { standard with
        bindAddress := farHost.bindAddress
        peerAddress := farHost.peerAddress
        receiveMode := .blockingTimeout
        queueCapacity := 0x7FFFFFFFFFFFFFFF } ∧
      load (some (Utf8.encode farHost.text)) = .ok farHost := by
  have hstorable : farHost.Storable := by constructor <;> decide
  obtain ⟨hparts, hwhole⟩ := load_lines.1 farHost hstorable
  obtain ⟨t, ht, hwritten, hother⟩ :=
    hparts [.queueCapacity, .receiveMode, .peerAddress, .bindAddress] (by decide)
  have hlines : String.ofList (farHost.lines [.queueCapacity, .receiveMode, .peerAddress,
      .bindAddress]) = "event_queue_capacity = 9223372036854775807\n" ++
        "receive_mode = \x22BlockingTimeout\x22\n" ++
        "peer_addr = \x22[::ffff:10.0.0.1]:7947\x22\n" ++
        "bind_addr = \x22[fe80:0:0:1::2%3]:65535\x22\n" := by
    decide +kernel
  rw [hlines] at ht
  refine ⟨hstorable, ht.trans (congrArg Except.ok (eq_of_sameAt fun f => ?_)),
    load_lines.2 _ _ hwhole⟩
  cases f with
  | bindAddress => exact hwritten .bindAddress (by decide)
  | peerAddress => exact hwritten .peerAddress (by decide)
  | receiveMode => exact hwritten .receiveMode (by decide)
  | pollInterval => exact hother .pollInterval (by decide)
  | keepaliveInterval => exact hother .keepaliveInterval (by decide)
  | discoveryTimeout => exact hother .discoveryTimeout (by decide)
  | shutdownTimeout => exact hother .shutdownTimeout (by decide)
  | queueCapacity => exact hwritten .queueCapacity (by decide)

end VirtualPad.Settings
