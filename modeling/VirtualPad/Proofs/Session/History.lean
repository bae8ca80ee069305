import Mathlib.Data.List.Induction
import Mathlib.Order.Bounds.Defs
import VirtualPad.Proofs.Device.Step

/-!
# The history of a binding

What the receiver knows after any datagrams is a function of these datagrams: a controller is
bound exactly when one of its offers was taken and nothing that came later ended the binding.
-/
namespace VirtualPad

namespace Session
open Datagram (decode Keeps)

/-- The offer of `c` that came `k`-th is taken, and nothing after it ends the binding. -/
structure BindsAt (pinned? : Option Mapper) (history : List (List UInt8)) (c : Controller)
    (k : Nat) : Prop where
  offered : ∃ bytes, history[k]? = some bytes ∧ decode bytes = .ok (.offer (some c))
  fits : pinned? = none ∨ pinned? = some c.mapper
  kept : ∀ j bytes datagram, k < j → history[j]? = some bytes → decode bytes = .ok datagram →
    Keeps c datagram

def lastSample (history : List (List UInt8)) : Sample :=
  ((history.filterMap fun bytes => (decode bytes).toOption.bind (·.sample?)).getLast?).getD .zero

def undecodable (bytes : List UInt8) : Bool :=
  !(decode bytes).isOk

def conflicting (pinned? : Option Mapper) (bytes : List UInt8) : Bool :=
  match decode bytes with
  | .ok (.offer (some c)) => pinned?.any (· ≠ c.mapper)
  | _ => false

variable {pinned? : Option Mapper} {history : List (List UInt8)} {c : Controller} {k : Nat}

theorem BindsAt.lt (h : BindsAt pinned? history c k) : k < history.length := by
  obtain ⟨bytes, hk, -⟩ := h.offered
  exact (List.getElem?_eq_some_iff.mp hk).1

theorem bindsAt_append_length (bytes : List UInt8) :
    BindsAt pinned? (history ++ [bytes]) c history.length ↔
      decode bytes = .ok (.offer (some c)) ∧ (pinned? = none ∨ pinned? = some c.mapper) := by
  constructor
  · intro h
    obtain ⟨b, hb, hd⟩ := h.offered
    rw [List.getElem?_concat_length, Option.some.injEq] at hb
    subst hb
    exact ⟨hd, h.fits⟩
  · rintro ⟨hd, hf⟩
    refine ⟨⟨bytes, List.getElem?_concat_length, hd⟩, hf, ?_⟩
    intro j b datagram hj hb
    have hlen : (history ++ [bytes]).length ≤ j := by
      rw [List.length_append, List.length_singleton]
      omega
    rw [List.getElem?_eq_none hlen] at hb
    cases hb

theorem bindsAt_append_of_lt (hk : k < history.length) (bytes : List UInt8) :
    BindsAt pinned? (history ++ [bytes]) c k ↔
      BindsAt pinned? history c k ∧ ∀ datagram, decode bytes = .ok datagram → Keeps c datagram := by
  constructor
  · intro h
    refine ⟨⟨?_, h.fits, ?_⟩, ?_⟩
    · simpa only [List.getElem?_append_left hk] using h.offered
    · intro j b datagram hj hb hd
      have hjl := (List.getElem?_eq_some_iff.mp hb).1
      exact h.kept j b datagram hj (by rw [List.getElem?_append_left hjl, hb]) hd
    · intro datagram hd
      exact h.kept history.length bytes datagram hk List.getElem?_concat_length hd
  · rintro ⟨h, hb⟩
    refine ⟨?_, h.fits, ?_⟩
    · simpa only [List.getElem?_append_left hk] using h.offered
    · intro j b datagram hj hjb hd
      rcases Nat.lt_or_ge j history.length with hjl | hjl
      · rw [List.getElem?_append_left hjl] at hjb
        exact h.kept j b datagram hj hjb hd
      · have hje : j = history.length := by
          have := (List.getElem?_eq_some_iff.mp hjb).1
          simp only [List.length_append, List.length_singleton] at this
          omega
        subst hje
        rw [List.getElem?_concat_length, Option.some.injEq] at hjb
        subst hjb
        exact hb datagram hd

theorem exists_bindsAt_append (bytes : List UInt8) :
    (∃ k, BindsAt pinned? (history ++ [bytes]) c k) ↔
      (decode bytes = .ok (.offer (some c)) ∧ (pinned? = none ∨ pinned? = some c.mapper)) ∨
      ((∃ k, BindsAt pinned? history c k) ∧
        ∀ datagram, decode bytes = .ok datagram → Keeps c datagram) := by
  constructor
  · rintro ⟨k, h⟩
    have hk := h.lt
    rw [List.length_append, List.length_singleton] at hk
    rcases Nat.lt_or_ge k history.length with hlt | hge
    · obtain ⟨h', hb⟩ := (bindsAt_append_of_lt hlt bytes).mp h
      exact .inr ⟨⟨k, h'⟩, hb⟩
    · obtain rfl : k = history.length := by omega
      exact .inl ((bindsAt_append_length bytes).mp h)
  · rintro (h | ⟨⟨k, h⟩, hb⟩)
    · exact ⟨_, (bindsAt_append_length bytes).mpr h⟩
    · exact ⟨k, (bindsAt_append_of_lt h.lt bytes).mpr ⟨h, hb⟩⟩

theorem lastSample_append (bytes : List UInt8) :
    lastSample (history ++ [bytes]) =
      ((decode bytes).toOption.bind (·.sample?)).getD (lastSample history) := by
  simp only [lastSample]
  rw [List.filterMap_append]
  cases hs : (decode bytes).toOption.bind (·.sample?) <;> simp [hs]

structure Tracks (pinned? : Option Mapper) (history : List (List UInt8)) (s : Session) :
    Prop where
  pinned : s.device.pinned? = pinned?
  bound_iff : ∀ c, s.device.controller? = some c ↔ ∃ k, BindsAt pinned? history c k
  sample_eq : ∀ c k, IsLeast {k | BindsAt pinned? history c k} k →
    s.device.sample = lastSample (history.drop (k + 1))
  zero_of_unbound : s.device.controller? = none → s.device.sample = .zero
  dropped_eq : s.counters.dropped =
    history.countP undecodable + history.countP (conflicting pinned?)

theorem tracks_nil {s : Session} (hp : s.device.pinned? = pinned?)
    (hc : s.device.controller? = none) (hs : s.device.sample = .zero)
    (hd : s.counters.dropped = 0) : Tracks pinned? [] s where
  pinned := hp
  bound_iff c := by
    rw [hc]
    refine ⟨nofun, ?_⟩
    rintro ⟨k, h⟩
    exact absurd h.lt (Nat.not_lt_zero k)
  sample_eq c k h := absurd h.1.lt (Nat.not_lt_zero k)
  zero_of_unbound _ := hs
  dropped_eq := hd

theorem Tracks.fits {s : Session} (h : Tracks pinned? history s)
    (hc : s.device.controller? = some c) : s.device.Fits c := by
  obtain ⟨k, hk⟩ := (h.bound_iff c).mp hc
  simp only [Device.Fits]
  rw [h.pinned]
  exact hk.fits

theorem dropped_dispatch (s : Session) (bytes : List UInt8) :
    (s.dispatch bytes).counters.dropped =
      s.counters.dropped + (s.device.receive bytes).dropped.toNat := by
  have hc : (s.accept (s.device.receive bytes)).counters = s.counters := counters_deposit _ _
  unfold dispatch
  dsimp only
  split_ifs with hd
  · simp [hd, hc]
  · simp [hd, hc]

theorem dropped_receive {s : Session} (h : s.device.pinned? = pinned?) (bytes : List UInt8) :
    (s.device.receive bytes).dropped =
      (undecodable bytes || conflicting pinned? bytes) := by
  subst h
  simp only [Device.receive, undecodable, conflicting]
  cases decode bytes with
  | error e => rfl
  | ok datagram =>
    apply Bool.eq_iff_iff.mpr
    rw [s.device.dropped_hear datagram]
    cases datagram with
    | offer c? =>
      cases c? with
      | none => simp [Except.isOk, Except.toBool]
      | some c => simp [Except.isOk, Except.toBool, Device.fits_iff]
    | state ack id sample => simp [Except.isOk, Except.toBool]
    | release => simp [Except.isOk, Except.toBool]

theorem conflicting_of_undecodable {bytes : List UInt8} (h : undecodable bytes = true) :
    conflicting pinned? bytes = false := by
  simp only [undecodable] at h
  simp only [conflicting]
  cases hd : decode bytes with
  | error e => rfl
  | ok datagram => simp [hd, Except.isOk, Except.toBool] at h

theorem Tracks.bound_iff_dispatch {s : Session} (h : Tracks pinned? history s)
    (bytes : List UInt8) (c : Controller) :
    (s.dispatch bytes).device.controller? = some c ↔
      ∃ k, BindsAt pinned? (history ++ [bytes]) c k := by
  rw [device_dispatch, exists_bindsAt_append, ← h.bound_iff, Device.receive]
  cases decode bytes with
  | error e => simp
  | ok datagram =>
    simp only [Except.ok.injEq, forall_eq']
    rw [Device.controller_hear (fun e he => h.fits he), Device.Fits, h.pinned]

theorem Tracks.sample_dispatch {s : Session} (h : Tracks pinned? history s) (bytes : List UInt8)
    (hk : IsLeast {k | BindsAt pinned? (history ++ [bytes]) c k} k) :
    (s.dispatch bytes).device.sample = lastSample ((history ++ [bytes]).drop (k + 1)) := by
  obtain ⟨hbind, hleast⟩ := hk
  have hlt := hbind.lt
  rw [List.length_append, List.length_singleton] at hlt
  rw [device_dispatch]
  rcases Nat.lt_or_ge k history.length with hkl | hkl
  · -- The binding is older than the datagram, which keeps it.
    obtain ⟨hold, hkeep⟩ := (bindsAt_append_of_lt hkl bytes).mp hbind
    have holdest : IsLeast {k | BindsAt pinned? history c k} k := by
      refine ⟨hold, ?_⟩
      intro j hj
      exact hleast ((bindsAt_append_of_lt hj.lt bytes).mpr ⟨hj, hkeep⟩)
    have hsample := h.sample_eq c k holdest
    have hc := (h.bound_iff c).mpr ⟨k, hold⟩
    rw [List.drop_append_of_le_length (by omega), lastSample_append, ← hsample, Device.receive]
    cases hd : decode bytes with
    | error e => rfl
    | ok datagram =>
      exact Device.sample_hear_of_keeps hc (h.fits hc) (hkeep datagram hd)
  · -- The datagram is the offer with which the binding begins.
    obtain rfl : k = history.length := by omega
    obtain ⟨hd, hf⟩ := (bindsAt_append_length bytes).mp hbind
    have hc : s.device.controller? ≠ some c := by
      intro hc
      obtain ⟨j, hj⟩ := (h.bound_iff c).mp hc
      have hkeep : ∀ datagram, decode bytes = .ok datagram → Keeps c datagram := by
        intro datagram hd'
        rw [hd, Except.ok.injEq] at hd'
        subst hd'
        rfl
      have hle := hleast ((bindsAt_append_of_lt hj.lt bytes).mpr ⟨hj, hkeep⟩)
      have hjl := hj.lt
      omega
    rw [List.drop_eq_nil_of_le (by simp), Device.receive, hd]
    exact Device.sample_hear_offer hc (by rwa [Device.Fits, h.pinned])

theorem Tracks.dispatch {s : Session} (h : Tracks pinned? history s) (bytes : List UInt8) :
    Tracks pinned? (history ++ [bytes]) (s.dispatch bytes) where
  pinned := by
    rw [device_dispatch, Device.pinned?, Device.layout_receive]
    exact h.pinned
  bound_iff := h.bound_iff_dispatch bytes
  sample_eq _ _ hk := h.sample_dispatch bytes hk
  zero_of_unbound := by
    rw [device_dispatch, Device.receive]
    cases decode bytes with
    | error e => exact h.zero_of_unbound
    | ok datagram => exact Device.sample_hear_of_unbound h.zero_of_unbound datagram
  dropped_eq := by
    rw [dropped_dispatch, dropped_receive h.pinned, h.dropped_eq, List.countP_append,
      List.countP_append, List.countP_singleton, List.countP_singleton]
    cases hu : undecodable bytes with
    | false =>
      cases conflicting pinned? bytes with
      | false => simp
      | true =>
        simp
        omega
    | true =>
      simp [conflicting_of_undecodable hu]
      omega

theorem tracks_foldl {s : Session} (hs : Tracks pinned? [] s) (history : List (List UInt8)) :
    Tracks pinned? history (history.foldl dispatch s) := by
  induction history using List.reverseRecOn with
  | nil => exact hs
  | append_singleton history bytes ih =>
    rw [List.foldl_append]
    exact ih.dispatch bytes

/-- What a receiver that has heard `history` knows. Its device has nothing but a layout, if that,
when it starts. -/
theorem known_after_history (n : Network) (layout? : Option Layout) (history : List (List UInt8)) :
    let pinned? := layout?.map (·.mapper)
    let s := history.foldl dispatch ((fresh n).withDevice { Device.fresh with layout? })
    (∀ c, s.device.controller? = some c ↔ ∃ k, BindsAt pinned? history c k) ∧
    (∀ c k, IsLeast {k | BindsAt pinned? history c k} k →
      s.device.sample = lastSample (history.drop (k + 1))) ∧
    (s.device.controller? = none → s.device.sample = .zero) ∧
    s.counters.dropped =
      history.countP undecodable + history.countP (conflicting pinned?) := by
  have h : Tracks (layout?.map (·.mapper)) []
      ((fresh n).withDevice { Device.fresh with layout? }) := tracks_nil rfl rfl rfl rfl
  have hs := tracks_foldl h history
  exact ⟨hs.bound_iff, hs.sample_eq, hs.zero_of_unbound, hs.dropped_eq⟩

end Session
end VirtualPad
