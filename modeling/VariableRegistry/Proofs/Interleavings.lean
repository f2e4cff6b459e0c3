/-
# Interleavings

Clients that share a registry call it one at a time, in an order that nobody fixes. If no two of
them call about the same channel of the same variable, the order does not matter: each client is
answered as if it were alone, and every order leaves the same registry.
-/
import Mathlib.Logic.Function.Basic
import VariableRegistry.Proofs.LocalCalls
import VariableRegistry.Registry.Shared

namespace VariableRegistry

variable {ι : Type}

/-! ## Calls through the lock -/

namespace SharedRegistry

/-- Makes a call while the registry is locked. -/
def call (s : SharedRegistry) (c : Call) : Except AccessError Reply × SharedRegistry :=
  s.run fun r => (.ok (r.step c).1, (r.step c).2)

/-- Makes the calls of a schedule one after another; each answer stands beside the client that gets
it. -/
def play (s : SharedRegistry) :
    List (ι × Call) → List (ι × Except AccessError Reply) × SharedRegistry
  | [] => ([], s)
  | (k, c) :: schedule =>
    let (answer, s) := s.call c
    let (answers, s) := play s schedule
    ((k, answer) :: answers, s)

/-- Nobody breaks down inside a call, so the lock refuses none. -/
theorem play_new_cons (r : Registry) (k : ι) (c : Call) (schedule : List (ι × Call)) :
    (new r).play ((k, c) :: schedule) =
      ((k, .ok (r.step c).1) :: ((new (r.step c).2).play schedule).1,
        ((new (r.step c).2).play schedule).2) := rfl

end SharedRegistry

/-! ## Programs of clients -/

/-- All calls are about channels, and no two clients call about the same channel of the same
variable. -/
structure Separate (programs : ι → List Call) : Prop where
  targets : ∀ k, ∀ c ∈ programs k, c.target? ≠ none
  apart : ∀ j k, j ≠ k → ∀ c ∈ programs j, ∀ c' ∈ programs k, c.target? ≠ c'.target?

/-- Some call of a program is about a channel. -/
def Addresses (program : List Call) (h : Handle) (channel : UInt16) : Prop :=
  ∃ c ∈ program, c.target? = some (h, channel)

/-! ## Clients that do not disturb each other -/

namespace Registry

variable {r₀ r r' : Registry} {programs : ι → List Call} {alone : ι → Registry}

/-- Since a shared registry was `r₀`, no client has disturbed another one: `alone` says what the
registry would be for each of them if there were no others, each finds its channels as they are
there, and the cells that nobody calls about are as they were. -/
structure Undisturbed (programs : ι → List Call) (r₀ : Registry) (alone : ι → Registry)
    (r : Registry) : Prop where
  directory : r.directory = r₀.directory
  policy : r.policy = r₀.policy
  own : ∀ k h channel, Addresses (programs k) h channel → (alone k).SameAt h channel r
  others : ∀ (a : DataArray) (i : Nat),
    (∀ k h channel, Addresses (programs k) h channel → ¬r₀.directory.Locates h channel a i) →
      (r.store.cells a)[i]? = (r₀.store.cells a)[i]?

/-- In the beginning nobody has done anything. -/
theorem undisturbed_refl (programs : ι → List Call) (r : Registry) :
    Undisturbed programs r (fun _ => r) r where
  directory := rfl
  policy := rfl
  own := fun _ h channel _ => .refl r h channel
  others := fun _ _ _ => rfl

/-- What the clients would find on their own determines the registry. -/
theorem Undisturbed.unique (hr : Undisturbed programs r₀ alone r)
    (hr' : Undisturbed programs r₀ alone r') : r = r' := by
  have hstore : r.store = r'.store := by
    apply DataStore.ext_getElem?
    intro a i
    by_cases hcell : ∃ k h channel, Addresses (programs k) h channel ∧
        r₀.directory.Locates h channel a i
    · obtain ⟨k, h, channel, hk, hcell⟩ := hcell
      have hs := hr.own k h channel hk
      rw [← hr.directory, hs.directory] at hcell
      rw [hs.cell a i hcell, (hr'.own k h channel hk).cell a i hcell]
    · have hnone : ∀ k h channel, Addresses (programs k) h channel →
          ¬r₀.directory.Locates h channel a i :=
        fun k h channel hk hlocates => hcell ⟨k, h, channel, hk, hlocates⟩
      rw [hr.others a i hnone, hr'.others a i hnone]
  obtain ⟨directory, store, policy⟩ := r
  obtain ⟨directory', store', policy'⟩ := r'
  have hdirectory : directory = directory' := hr.directory.trans hr'.directory.symm
  have hpolicy : policy = policy' := hr.policy.trans hr'.policy.symm
  cases hdirectory
  cases hpolicy
  cases hstore
  rfl

end Registry

/-! ## Schedules -/

variable [DecidableEq ι]

/-- What stands beside a client in a list, in its order. -/
def entriesOf {α : Type} (k : ι) (entries : List (ι × α)) : List α :=
  (entries.filter fun entry => entry.1 = k).map Prod.snd

section Entries

variable {α : Type} {j k : ι} {x : α} {entries : List (ι × α)}

theorem entriesOf_cons_self (k : ι) (x : α) (entries : List (ι × α)) :
    entriesOf k ((k, x) :: entries) = x :: entriesOf k entries := by
  simp [entriesOf]

theorem entriesOf_cons_of_ne (h : j ≠ k) (x : α) (entries : List (ι × α)) :
    entriesOf k ((j, x) :: entries) = entriesOf k entries := by
  simp [entriesOf, h]

theorem mem_entriesOf (h : (k, x) ∈ entries) : x ∈ entriesOf k entries :=
  List.mem_map_of_mem (f := Prod.snd) (List.mem_filter.2 ⟨h, decide_eq_true rfl⟩)

end Entries

/-- In a schedule each client makes the calls of its program, in their order. -/
def Interleaves (programs : ι → List Call) (schedule : List (ι × Call)) : Prop :=
  ∀ k, entriesOf k schedule = programs k

namespace Registry

open SharedRegistry (new play_new_cons)

variable {r₀ r : Registry} {programs : ι → List Call} {alone : ι → Registry}
  {schedule : List (ι × Call)}

/-- A client that makes a call is answered as if it were alone, and disturbs nobody. -/
theorem Undisturbed.step (hu : Undisturbed programs r₀ alone r) (hseparate : Separate programs)
    (hdivided : r₀.directory.Divided) (hsound : r₀.directory.Sound) {k : ι} {c : Call}
    (hc : c ∈ programs k) :
    (r.step c).1 = ((alone k).step c).1 ∧
      Undisturbed programs r₀ (Function.update alone k ((alone k).step c).2) (r.step c).2 := by
  obtain ⟨⟨h, channel⟩, htarget⟩ := Option.ne_none_iff_exists'.1 (hseparate.targets k c hc)
  have hs : (alone k).SameAt h channel r := hu.own k h channel ⟨c, hc, htarget⟩
  obtain ⟨reply, f, hf, hstep⟩ := step_local (alone k) htarget
  have hwrites : r.directory.Writes h channel f := hs.directory.symm ▸ hf
  rw [hstep r hs, hstep (alone k) (.refl _ h channel)]
  refine ⟨rfl, ?_⟩
  exact {
    directory := (directory_of_writes hf r).trans hu.directory
    policy := (policy_of_writes hf r).trans hu.policy
    own := by
      intro j h' channel' hj
      by_cases hjk : j = k
      · -- the client itself does the same on its own
        subst hjk
        rw [Function.update_self]
        exact (hu.own j h' channel' hj).change_both hf
      · rw [Function.update_of_ne hjk]
        apply (hu.own j h' channel' hj).change_other hwrites
        · rw [hu.directory]
          exact hdivided
        · rw [hu.directory]
          exact hsound
        · obtain ⟨c', hc', htarget'⟩ := hj
          intro heq
          apply hseparate.apart j k hjk c' hc' c hc
          rw [htarget', htarget, heq]
    others := by
      intro a i hnone
      have hother := hnone k h channel ⟨c, hc, htarget⟩
      rw [← hu.directory] at hother
      exact (getElem?_of_writes hwrites hother r).trans (hu.others a i hnone) }

/-- On its own, the client that makes the first call of a schedule goes on from this call, and the
others go on from where they were. -/
theorem run_entriesOf_cons (alone : ι → Registry) (k : ι) (c : Call)
    (schedule : List (ι × Call)) (j : ι) :
    ((alone j).run (entriesOf j ((k, c) :: schedule))).2 =
      ((Function.update alone k ((alone k).step c).2 j).run (entriesOf j schedule)).2 := by
  by_cases hj : j = k
  · subst hj
    rw [entriesOf_cons_self, Function.update_self]
    rfl
  · rw [entriesOf_cons_of_ne (Ne.symm hj), Function.update_of_ne hj]

/-- The clients of a schedule are answered as if each were alone, and disturb nobody. -/
theorem Undisturbed.play (hu : Undisturbed programs r₀ alone r) (hseparate : Separate programs)
    (hdivided : r₀.directory.Divided) (hsound : r₀.directory.Sound)
    (hcalls : ∀ k c, (k, c) ∈ schedule → c ∈ programs k) :
    (∀ k, entriesOf k ((new r).play schedule).1 =
      ((alone k).run (entriesOf k schedule)).1.map .ok) ∧
    ∃ r', ((new r).play schedule).2 = new r' ∧
      Undisturbed programs r₀ (fun k => ((alone k).run (entriesOf k schedule)).2) r' := by
  induction schedule generalizing alone r with
  | nil => exact ⟨fun _ => rfl, r, rfl, hu⟩
  | cons entry schedule ih =>
    obtain ⟨k, c⟩ := entry
    obtain ⟨hanswer, hnext⟩ := hu.step hseparate hdivided hsound (hcalls k c List.mem_cons_self)
    obtain ⟨hanswers, r', hr', hlast⟩ :=
      ih hnext fun j c' hc' => hcalls j c' (List.mem_cons_of_mem _ hc')
    rw [play_new_cons]
    constructor
    · intro j
      have hrest := hanswers j
      by_cases hj : j = k
      · subst hj
        rw [Function.update_self] at hrest
        rw [entriesOf_cons_self, entriesOf_cons_self, hrest, hanswer]
        rfl
      · rw [Function.update_of_ne hj] at hrest
        rw [entriesOf_cons_of_ne (Ne.symm hj), entriesOf_cons_of_ne (Ne.symm hj), hrest]
    · refine ⟨r', hr', ?_⟩
      simp only [run_entriesOf_cons]
      exact hlast

/-- **The order of the clients does not matter.** Let clients share a registry of built tables and
make calls about channels, no two of them about the same one. Then any two schedules of their
programs give each client the same answers, those that it would get if it were alone, and end with
the same registry. -/
theorem interleavings_agree (policy : AccessPolicy) (ds : List Declaration) (t : TableSet)
    (hbuild : ((Builder.new policy).addAll ds).2.build = .ok t) (r : Registry)
    (hreach : Reachable t r) (programs : ι → List Call) (hseparate : Separate programs)
    (schedule schedule' : List (ι × Call)) (hschedule : Interleaves programs schedule)
    (hschedule' : Interleaves programs schedule') :
    (∀ k, entriesOf k ((new r).play schedule).1 = entriesOf k ((new r).play schedule').1) ∧
    (∀ k, entriesOf k ((new r).play schedule).1 = (r.run (programs k)).1.map .ok) ∧
    ((new r).play schedule).2 = ((new r).play schedule').2 := by
  have hplay : ∀ schedule, Interleaves programs schedule →
      (∀ k, entriesOf k ((new r).play schedule).1 = (r.run (programs k)).1.map .ok) ∧
      ∃ r', ((new r).play schedule).2 = new r' ∧
        Undisturbed programs r (fun k => (r.run (programs k)).2) r' := by
    intro schedule hschedule
    simpa only [hschedule _] using
      (undisturbed_refl programs r).play hseparate (hreach.divided hbuild) hreach.belongs.sound
        fun k c hc => hschedule k ▸ mem_entriesOf hc
  obtain ⟨hanswers, r', hr', hu⟩ := hplay schedule hschedule
  obtain ⟨hanswers', r'', hr'', hu'⟩ := hplay schedule' hschedule'
  refine ⟨fun k => (hanswers k).trans (hanswers' k).symm, hanswers, ?_⟩
  rw [hr', hr'', hu.unique hu']

end Registry

/-- Two clients of the registry of `namesakes`: one writes and reads the last channel of the
enumeration, the other replaces a bound and writes another channel of the enumeration. -/
def namesakesClients : Bool → List Call
  | false => [.text ⟨⟨1⟩, .write, 2, ⟨0x0011⟩⟩ " off ",
      .typed .int16 ⟨⟨1⟩, .read, 2, ⟨0x0011⟩⟩ (0 : Int16)]
  | true => [.setBoundValue .max ⟨0⟩ ⟨.int32, (5 : Int32)⟩ 0,
      .typed .int16 ⟨⟨1⟩, .write, 0, ⟨0x0011⟩⟩ (3 : Int16)]

/-- One client after the other. -/
def namesakesOneByOne : List (Bool × Call) :=
  (namesakesClients false).map (false, ·) ++ (namesakesClients true).map (true, ·)

/-- The clients in turn. -/
def namesakesInTurn : List (Bool × Call) :=
  ((namesakesClients true).zip (namesakesClients false)).flatMap
    fun (c, c') => [(true, c), (false, c')]

theorem separate_namesakesClients : Separate namesakesClients where
  targets := by
    rintro (_ | _) <;> simp [namesakesClients, Call.target?]
  apart := by
    rintro (_ | _) (_ | _) <;> simp [namesakesClients, Call.target?]

namespace Registry

open SharedRegistry (new)

/-- Whether they go one by one or in turn, both clients get the same answers, and the cells of the
enumeration end up the same. -/
theorem namesakes_interleavings : ∃ t r,
    ((Builder.new .exact).addAll namesakes).2.build = .ok t ∧ Registry.init t = .ok r ∧
      ((new r).play namesakesOneByOne).2.registry.store.enums = #[3, 7, 3] ∧
      (∀ k, entriesOf k ((new r).play namesakesOneByOne).1 =
        entriesOf k ((new r).play namesakesInTurn).1) ∧
      (∀ k, entriesOf k ((new r).play namesakesOneByOne).1 =
        (r.run (namesakesClients k)).1.map .ok) ∧
      ((new r).play namesakesOneByOne).2 = ((new r).play namesakesInTurn).2 := by
  have hplayed : (((Builder.new .exact).addAll namesakes).2.build.toOption.bind fun t =>
      (Registry.init t).toOption.map fun r =>
        ((new r).play namesakesOneByOne).2.registry.store.enums) = some #[3, 7, 3] := by
    decide +kernel
  obtain ⟨t, ht, hinit⟩ := Option.bind_eq_some_iff.1 hplayed
  obtain ⟨r, hr, hcells⟩ := Option.map_eq_some_iff.1 hinit
  rw [toOption_eq_some] at ht hr
  exact ⟨t, r, ht, hr, hcells,
    interleavings_agree .exact namesakes t ht r (.init hr) namesakesClients
      separate_namesakesClients namesakesOneByOne namesakesInTurn
      (by rintro (_ | _) <;> rfl) (by rintro (_ | _) <;> rfl)⟩

end Registry

end VariableRegistry
