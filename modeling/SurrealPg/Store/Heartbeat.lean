import Mathlib.Logic.Function.Basic
import SurrealPg.Semantics.Machine
import SurrealPg.Store.Begin

/-!
# The life of the heartbeat

In direct mode `PgStore::new` spawns a task that lives until a token is cancelled. The values made
by cloning a store share the token, and the destructor of each of them cancels it. So the task dies
with the first value that goes, which is the last one only if there is no other.

A value is either held by one owner or by several `Arc`s. Its destructor runs when the last of its
owners lets go.
-/

namespace SurrealPg

open Semantics

variable {ι : Type} [DecidableEq ι]

/-! ## Values and what they share -/

/-- How far a call of `PgStore::new` has come. -/
inductive Stage
  | building
  /-- It has failed, or its future was dropped. -/
  | failed
  | built
  deriving DecidableEq

/-- What the clones of one store share. -/
structure Shared where
  mode : ConnectionMode
  stage : Stage
  /-- The heartbeat token is cancelled; there is none in pooled mode. -/
  cancelled : Bool
  /-- `shutdown()` has been called. -/
  shuttingDown : Bool

namespace Shared

/-- What `new` makes before the first thing that can fail. -/
def new (mode : ConnectionMode) : Shared := ⟨mode, .building, false, false⟩

/-- `if let Some(cancel) = &self.heartbeat_cancel { cancel.cancel() }` -/
def cancelHeartbeat (x : Shared) : Shared :=
  match x.mode with
  | .direct => { x with cancelled := true }
  | .pooled => x

/-- The destructor of the `HeartbeatGuard` of `new`. -/
def dropGuard (armed : Bool) (x : Shared) : Shared := if armed then x.cancelHeartbeat else x

end Shared

/-- A `PgStore` value: what it shares, and by how many it is owned. -/
structure StoreValue (ι : Type) where
  shared : ι
  owners : ℕ

/-- All calls of `new`, and all values ever made. -/
structure StoreHeap (ι : Type) where
  shared : ι → Option Shared
  value : ι → Option (StoreValue ι)

inductive HeapOp (ι : Type)
  | newCalled (f : ι) (mode : ConnectionMode)
  | newFailed (f : ι)
  /-- `Ok(Arc::new(Self { .. }))` -/
  | newReturned (f v : ι)
  /-- `(*store).clone()` -/
  | clone (v v' : ι)
  /-- `Arc::clone(&store)` -/
  | cloneArc (v : ι)
  /-- An owner lets go. -/
  | drop (v : ι)
  | shutdown (v : ι)

namespace StoreHeap

def empty : StoreHeap ι := ⟨fun _ ↦ none, fun _ ↦ none⟩

def setShared (h : StoreHeap ι) (f : ι) (x : Shared) : StoreHeap ι :=
  { h with shared := Function.update h.shared f (some x) }

def setValue (h : StoreHeap ι) (v : ι) (x : StoreValue ι) : StoreHeap ι :=
  { h with value := Function.update h.value v (some x) }

/-- `impl Drop for PgStore`, when the owner that let go was the last of `owners`. -/
def dropValue (h : StoreHeap ι) (owners : ℕ) (f : ι) (x : Shared) : StoreHeap ι :=
  if owners = 1 then h.setShared f x.cancelHeartbeat else h

inductive Step : StoreHeap ι → HeapOp ι → StoreHeap ι → Prop
  | newCalled {h : StoreHeap ι} {f : ι} (mode : ConnectionMode) : h.shared f = none →
    Step h (.newCalled f mode) (h.setShared f (.new mode))
  | newFailed {h : StoreHeap ι} {f : ι} {x : Shared} : h.shared f = some x →
    x.stage = .building →
    Step h (.newFailed f) (h.setShared f { x.dropGuard true with stage := .failed })
  | newReturned {h : StoreHeap ι} {f v : ι} {x : Shared} : h.shared f = some x →
    x.stage = .building → h.value v = none →
    Step h (.newReturned f v)
      ((h.setShared f { x.dropGuard false with stage := .built }).setValue v ⟨f, 1⟩)
  | clone {h : StoreHeap ι} {v v' : ι} {y : StoreValue ι} : h.value v = some y →
    0 < y.owners → h.value v' = none → Step h (.clone v v') (h.setValue v' ⟨y.shared, 1⟩)
  | cloneArc {h : StoreHeap ι} {v : ι} {y : StoreValue ι} : h.value v = some y →
    0 < y.owners → Step h (.cloneArc v) (h.setValue v { y with owners := y.owners + 1 })
  | drop {h : StoreHeap ι} {v : ι} {y : StoreValue ι} {x : Shared} : h.value v = some y →
    0 < y.owners → h.shared y.shared = some x →
    Step h (.drop v)
      ((h.setValue v { y with owners := y.owners - 1 }).dropValue y.owners y.shared x)
  | shutdown {h : StoreHeap ι} {v : ι} {y : StoreValue ι} {x : Shared} : h.value v = some y →
    0 < y.owners → h.shared y.shared = some x →
    Step h (.shutdown v)
      (h.setShared y.shared { x with shuttingDown := true }.cancelHeartbeat)

/-- `PostgresComposer::new_transaction_builder`: the store it returns is a clone of the one that
`new` returned, whose only `Arc` goes at the end of the function. -/
def newTransactionBuilder (f store boxed : ι) : List (HeapOp ι) :=
  [.newCalled f .direct, .newReturned f store, .clone store boxed, .drop store]

/-! ## The law and its condition -/

/-- A heartbeat has been stopped only where `new` failed, `shutdown` was called, or no value that
shares it is alive. -/
def HeartbeatsJustified (h : StoreHeap ι) : Prop :=
  ∀ f x, h.shared f = some x → x.cancelled = true → x.stage = .failed ∨ x.shuttingDown = true ∨
    ∀ v y, h.value v = some y → y.shared = f → y.owners = 0

/-- If the operation makes the last owner of a value let go, its direct-mode store has been shut
down, or no other value that shares the heartbeat is alive. -/
def Timely (h : StoreHeap ι) : HeapOp ι → Prop
  | .drop v => ∀ y x, h.value v = some y → h.shared y.shared = some x → y.owners = 1 →
    x.mode = .direct → x.shuttingDown = true ∨
      ∀ v' y', v' ≠ v → h.value v' = some y' → y'.shared = y.shared → y'.owners = 0
  | _ => True

/-- Values come from a `new` that has succeeded, and a `new` under way has cancelled nothing. -/
structure Sound (h : StoreHeap ι) : Prop where
  built : ∀ v y, h.value v = some y → ∃ x, h.shared y.shared = some x ∧ x.stage = .built
  building : ∀ f x, h.shared f = some x → x.stage = .building →
    x.cancelled = false ∧ x.shuttingDown = false

section Steps

variable {h h' : StoreHeap ι} {e : HeapOp ι} {f v : ι} {x : Shared} {y : StoreValue ι}

@[simp] theorem setValue_shared : (h.setValue v y).shared = h.shared := rfl

theorem setShared_shared (g : ι) :
    (h.setShared f x).shared g = if g = f then some x else h.shared g := Function.update_apply ..

theorem setValue_value (w : ι) :
    (h.setValue v y).value w = if w = v then some y else h.value w := Function.update_apply ..

@[simp] theorem dropValue_value {n : ℕ} : (h.dropValue n f x).value = h.value := by
  rw [dropValue]
  split_ifs <;> rfl

omit [DecidableEq ι] in
theorem stage_cancelHeartbeat (x : Shared) : x.cancelHeartbeat.stage = x.stage := by
  rw [Shared.cancelHeartbeat]
  cases x.mode <;> rfl

omit [DecidableEq ι] in
theorem shuttingDown_cancelHeartbeat (x : Shared) :
    x.cancelHeartbeat.shuttingDown = x.shuttingDown := by
  rw [Shared.cancelHeartbeat]
  cases x.mode <;> rfl

theorem Sound.setShared {x' : Shared} (hs : h.Sound) (hf : h.shared f = some x)
    (hbuilt : x.stage = .built → x'.stage = .built) (hbuilding : x'.stage ≠ .building) :
    (h.setShared f x').Sound where
  built w z hw := by
    obtain ⟨x₀, hx₀, hstage⟩ := hs.built w z hw
    rw [setShared_shared]
    split_ifs with hzf
    · rw [hzf, hf] at hx₀
      obtain rfl := Option.some.inj hx₀
      exact ⟨x', rfl, hbuilt hstage⟩
    · exact ⟨x₀, hx₀, hstage⟩
  building g x₀ hg hstage := by
    rw [setShared_shared] at hg
    split_ifs at hg with hgf
    · obtain rfl := Option.some.inj hg
      exact absurd hstage hbuilding
    · exact hs.building g x₀ hg hstage

theorem Sound.setValue (hs : h.Sound)
    (hbuilt : ∃ x, h.shared y.shared = some x ∧ x.stage = .built) : (h.setValue v y).Sound where
  built w z hw := by
    rw [setValue_value] at hw
    split_ifs at hw with hwv
    · obtain rfl := Option.some.inj hw
      exact hbuilt
    · exact hs.built w z hw
  building := hs.building

theorem Sound.step (hs : h.Sound) (hstep : Step h e h') : h'.Sound := by
  cases hstep with
  | @newCalled f mode hf =>
    refine ⟨fun w z hw ↦ ?_, fun g x hg hstage ↦ ?_⟩
    -- the place that is taken was free, so it is not that of a store in use
    · obtain ⟨x₀, hx₀, hstage⟩ := hs.built w z hw
      refine ⟨x₀, ?_, hstage⟩
      rw [setShared_shared, if_neg, hx₀]
      rintro rfl
      exact nomatch hf.symm.trans hx₀
    · rw [setShared_shared] at hg
      split_ifs at hg with hgf
      · obtain rfl := Option.some.inj hg
        exact ⟨rfl, rfl⟩
      · exact hs.building g x hg hstage
  | newFailed hf hstage =>
    exact hs.setShared hf (fun hbuilt ↦ nomatch hstage.symm.trans hbuilt) nofun
  | newReturned hf hstage =>
    refine (hs.setShared hf ?_ ?_).setValue ⟨_, Function.update_self .., rfl⟩
    · exact fun _ ↦ rfl
    · exact nofun
  | clone hv =>
    obtain ⟨x, hx⟩ := hs.built _ _ hv
    exact hs.setValue ⟨x, hx⟩
  | cloneArc hv =>
    obtain ⟨x, hx⟩ := hs.built _ _ hv
    exact hs.setValue ⟨x, hx⟩
  | @drop v y x hv hpos hx =>
    obtain ⟨x₀, hx₀, hstage⟩ := hs.built v y hv
    obtain rfl := Option.some.inj (hx.symm.trans hx₀)
    have hset : (h.setValue v { y with owners := y.owners - 1 }).Sound :=
      hs.setValue ⟨x, hx, hstage⟩
    rw [dropValue]
    split_ifs
    · refine hset.setShared hx (fun _ ↦ ?_) ?_ <;> rw [stage_cancelHeartbeat, hstage]
      exact nofun
    · exact hset
  | @shutdown v y x hv hpos hx =>
    obtain ⟨x₀, hx₀, hstage⟩ := hs.built v y hv
    obtain rfl := Option.some.inj (hx.symm.trans hx₀)
    refine hs.setShared hx (fun _ ↦ ?_) ?_ <;> rw [stage_cancelHeartbeat, hstage]
    exact nofun

/-- The value whose owner lets go is alive until then. -/
theorem Sound.justified_drop (hs : h.Sound) (hj : h.HeartbeatsJustified) (hv : h.value v = some y)
    (hpos : 0 < y.owners) (hx : h.shared y.shared = some x) :
    ((h.setValue v { y with owners := y.owners - 1 }).dropValue y.owners y.shared
      x).HeartbeatsJustified ↔ h.Timely (.drop v) := by
  obtain ⟨x₀, hx₀, hstage⟩ := hs.built v y hv
  obtain rfl := Option.some.inj (hx.symm.trans hx₀)
  constructor
  · intro hj' y' x' hy' hx' hone hdirect
    obtain rfl := Option.some.inj (hv.symm.trans hy')
    obtain rfl := Option.some.inj (hx.symm.trans hx')
    have hshared : ((h.setValue v { y with owners := y.owners - 1 }).dropValue y.owners y.shared
        x).shared y.shared = some { x with cancelled := true } := by
      rw [dropValue, if_pos hone, setShared_shared, if_pos rfl, Shared.cancelHeartbeat, hdirect]
    obtain hfailed | hdown | hzero := hj' y.shared _ hshared rfl
    · exact nomatch hfailed.symm.trans hstage
    · exact Or.inl hdown
    · refine Or.inr fun w z hw hz hzy ↦ hzero w z ?_ hzy
      rw [dropValue_value, setValue_value, if_neg hw, hz]
  · intro htimely g x' hg hc
    -- The values left are those of before, with one owner less for the one let go.
    have hvalues : (∀ w z, w ≠ v → h.value w = some z → z.shared = g → z.owners = 0) →
        (y.shared = g → y.owners = 1) →
        ∀ w z, ((h.setValue v { y with owners := y.owners - 1 }).dropValue y.owners y.shared
          x).value w = some z → z.shared = g → z.owners = 0 := by
      intro hothers hone w z hw hz
      rw [dropValue_value, setValue_value] at hw
      split_ifs at hw with hwv
      · obtain rfl := Option.some.inj hw
        have hone := hone hz
        change y.owners - 1 = 0
        omega
      · exact hothers w z hwv hw hz
    have hold : h.shared g = some x' ∨ y.owners = 1 ∧ g = y.shared ∧ x' = x.cancelHeartbeat := by
      rw [dropValue] at hg
      split_ifs at hg with hone
      · rw [setShared_shared] at hg
        split_ifs at hg with hgf
        · exact Or.inr ⟨hone, hgf, (Option.some.inj hg).symm⟩
        · exact Or.inl hg
      · exact Or.inl hg
    obtain hold | ⟨hone, rfl, rfl⟩ := hold
    · refine (hj g x' hold hc).imp_right (Or.imp_right fun hzero ↦ ?_)
      exact hvalues (fun w z _ hw hz ↦ hzero w z hw hz) fun hg ↦
        absurd (hzero v y hv hg) hpos.ne'
    · have hcause : x.shuttingDown = true ∨ ∀ w z, w ≠ v → h.value w = some z →
          z.shared = y.shared → z.owners = 0 := by
        cases hmode : x.mode with
        | direct => exact htimely y x hv hx hone hmode
        | pooled =>
          rw [Shared.cancelHeartbeat, hmode] at hc
          obtain hfailed | hdown | hzero := hj y.shared x hx hc
          · exact nomatch hfailed.symm.trans hstage
          · exact Or.inl hdown
          · exact Or.inr fun w z _ ↦ hzero w z
      refine Or.inr (hcause.imp (fun hdown ↦ ?_) fun hothers ↦ hvalues hothers fun _ ↦ hone)
      rw [shuttingDown_cancelHeartbeat, hdown]

/-- **An operation keeps the law** exactly if it is timely. -/
theorem Sound.justified_step (hs : h.Sound) (hj : h.HeartbeatsJustified) (hstep : Step h e h') :
    h'.HeartbeatsJustified ↔ h.Timely e := by
  cases hstep with
  | @newCalled f mode hf =>
    refine iff_of_true (fun g x hg hc ↦ ?_) trivial
    rw [setShared_shared] at hg
    split_ifs at hg with hgf
    · obtain rfl := Option.some.inj hg
      exact nomatch hc
    · exact hj g x hg hc
  | @newFailed f x hf hstage =>
    refine iff_of_true (fun g x hg hc ↦ ?_) trivial
    rw [setShared_shared] at hg
    split_ifs at hg with hgf
    · obtain rfl := Option.some.inj hg
      exact Or.inl rfl
    · exact hj g x hg hc
  | @newReturned f v x hf hstage hv =>
    refine iff_of_true (fun g x' hg hc ↦ ?_) trivial
    rw [setValue_shared, setShared_shared] at hg
    split_ifs at hg with hgf
    · obtain rfl := Option.some.inj hg
      -- nobody has cancelled the heartbeat of a store still being built
      exact nomatch hc.symm.trans (hs.building f x hf hstage).1
    · refine (hj g x' hg hc).imp_right (Or.imp_right fun hzero w y hw hy ↦ ?_)
      rw [setValue_value] at hw
      split_ifs at hw with hwv
      · obtain rfl := Option.some.inj hw
        -- the value that `new` returns belongs to the store it has built
        exact absurd hy.symm hgf
      · exact hzero w y hw hy
  | @clone v v' y hv hpos hfree =>
    refine iff_of_true (fun g x hg hc ↦ ?_) trivial
    refine (hj g x hg hc).imp_right (Or.imp_right fun hzero w y' hw hy ↦ ?_)
    rw [setValue_value] at hw
    split_ifs at hw with hwv
    · obtain rfl := Option.some.inj hw
      -- what is cloned is alive, so its store has not lost its last value
      exact absurd (hzero v y hv hy) hpos.ne'
    · exact hzero w y' hw hy
  | @cloneArc v y hv hpos =>
    refine iff_of_true (fun g x hg hc ↦ ?_) trivial
    refine (hj g x hg hc).imp_right (Or.imp_right fun hzero w y' hw hy ↦ ?_)
    rw [setValue_value] at hw
    split_ifs at hw with hwv
    · obtain rfl := Option.some.inj hw
      exact absurd (hzero v y hv hy) hpos.ne'
    · exact hzero w y' hw hy
  | @shutdown v y x hv hpos hx =>
    refine iff_of_true (fun g x' hg hc ↦ ?_) trivial
    rw [setShared_shared] at hg
    split_ifs at hg with hgf
    · obtain rfl := Option.some.inj hg
      right
      left
      rw [Shared.cancelHeartbeat]
      cases x.mode <;> rfl
    · exact hj g x' hg hc
  | drop hv hpos hx => exact hs.justified_drop hj hv hpos hx

end Steps

end StoreHeap

open StoreHeap

/-- **The law holds at every point of a run** exactly if every operation of it is timely. -/
theorem heartbeatsJustified_iff {tr : List (HeapOp ι)} {h : StoreHeap ι} :
    Run (fun h e h' ↦ Step h e h' ∧ h'.HeartbeatsJustified) .empty tr h ↔
      Run (fun h e h' ↦ Step h e h' ∧ h.Timely e) .empty tr h := by
  have hempty : Sound (.empty : StoreHeap ι) ∧ HeartbeatsJustified (.empty : StoreHeap ι) :=
    ⟨⟨nofun, nofun⟩, nofun⟩
  refine Run.congr (I := fun h ↦ h.Sound ∧ h.HeartbeatsJustified) hempty ?_ ?_
  · rintro h e h' ⟨hs, -⟩ ⟨hstep, hj'⟩
    exact ⟨hs.step hstep, hj'⟩
  · rintro h e h' ⟨hs, hj⟩
    exact and_congr_right fun hstep ↦ hs.justified_step hj hstep

/-- The store that `new_transaction_builder` returns is alive and has not been shut down, and its
heartbeat is cancelled. -/
theorem not_heartbeatsJustified_newTransactionBuilder :
    ¬∀ h : StoreHeap ℕ, Run Step .empty (newTransactionBuilder 0 0 1) h →
      h.HeartbeatsJustified := by
  intro hlaw
  have h : Run Step (.empty : StoreHeap ℕ) [] .empty := .nil
  have h := h.snoc (e := .newCalled 0 .direct) (.newCalled _ rfl)
  have h := h.snoc (e := .newReturned 0 0) (.newReturned rfl rfl rfl)
  have h := h.snoc (e := .clone 0 1) (.clone rfl Nat.zero_lt_one rfl)
  have h := h.snoc (e := .drop 0) (.drop rfl Nat.zero_lt_one rfl)
  obtain hfailed | hdown | hzero := hlaw _ h 0 _ rfl rfl
  · exact nomatch hfailed
  · exact nomatch hdown
  · exact nomatch hzero 1 _ rfl rfl

end SurrealPg
