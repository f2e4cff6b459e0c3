/-
# Constants

A constant cannot be written to: whoever tries it, on whichever channel, gets an error, and nothing
changes. Its text stands in the blob, which no call can change, so everybody who may read it always
reads the same. The channel is looked at before the write is refused.
-/
import VariableRegistry.Proofs.NoEffect
import VariableRegistry.Proofs.StringCells

namespace VariableRegistry.Registry

variable {t : TableSet} {r : Registry} {q : Request} {d : Descriptor} {offset : Nat} {s : String}

/-! ## Writing -/

/-- A write to a constant is refused, at the latest when its channel was found. -/
theorem step_write_constant (hd : r.descriptor q.handle = .ok d) (hk : d.kind = .constant offset)
    (hq : q.direction = .write) :
    r.step (.text q s) =
      match d.checkChannel q.channel with
      | .error e => (.text (.error e) s, r)
      | .ok () => (.text (.error .accessDenied) s, r) := by
  simp only [step, outcome_text_constant hd hk, outcome_constant, hq]
  cases d.checkChannel q.channel <;> rfl

/-- The error of a channel that a variable does not have. -/
theorem checkChannel_of_not_hasChannel {channel : UInt16} (h : ¬d.HasChannel channel) :
    d.checkChannel channel = .error (if d.vector then .invalidChannel else .notVector) := by
  rcases hasChannel_or d channel with hchannel | ⟨hpos, hv⟩ | ⟨hpos, hv, hlast⟩
  · exact absurd hchannel h
  · rw [checkChannel_of_scalar hpos hv, hv]
    rfl
  · rw [checkChannel_of_last hpos hv hlast, hv]
    rfl

/-! ## Reading -/

/-- Whatever is called in between, whoever may read a variable reads one and the same text on every
channel that it has. -/
def AlwaysReads (r : Registry) (h : Handle) (d : Descriptor) (text : String) : Prop :=
  ∀ (calls : List Call) (q : Request) (s : String), q.handle = h → q.direction = .read →
    d.HasChannel q.channel → (r.run calls).2.Grants d q →
      (r.run calls).2.step (.text q s) = (.text (.ok ()) text, (r.run calls).2)

/-- A granted read of a constant gives as much of its text as a string cell could hold. -/
theorem step_read_constant (hd : r.descriptor q.handle = .ok d) (hk : d.kind = .constant offset)
    (hq : q.direction = .read) (hchannel : d.HasChannel q.channel) (hg : r.Grants d q)
    {text : String} (htext : r.directory.blob.textAt? offset = some text) :
    r.step (.text q s) =
      (.text (.ok ()) (String.ofList (Utf8.take TableSet.maxStringBytes text.toList)), r) := by
  simp only [step, outcome_text_constant hd hk, outcome_constant, hq, checkChannel_eq_ok.2 hchannel,
    gate_of_grants hg, htext]

theorem Belongs.run (h : r.Belongs t) (calls : List Call) : (r.run calls).2.Belongs t := by
  induction calls generalizing r with
  | nil => exact h
  | cons call calls ih => exact ih (h.step call)

/-- The text of a constant is always the same. -/
theorem Belongs.exists_alwaysReads (h : r.Belongs t) {handle : Handle}
    (hd : r.descriptor handle = .ok d) (hk : d.kind = .constant offset) :
    ∃ text, ∀ r' : Registry, r'.Belongs t → r'.AlwaysReads handle d text := by
  obtain ⟨text, htext⟩ := h.exists_text hd hk
  refine ⟨String.ofList (Utf8.take TableSet.maxStringBytes text.toList), fun r' h' => ?_⟩
  intro calls q s hq hread hchannel hg
  subst hq
  -- no call changes the directory, in which the text stands
  have hdirectory : r.directory = (r'.run calls).2.directory := (h'.run calls).directory_eq h
  have hd' : (r'.run calls).2.descriptor q.handle = .ok d := by
    rw [Registry.descriptor, ← hdirectory]
    exact hd
  exact step_read_constant hd' hk hread hchannel hg (hdirectory ▸ htext)

/-! ## The contract of constants -/

/-- **Constants are immune to writes.** In every state that calls lead to, a write to a constant
fails and changes nothing, neither the registry nor the text that was handed in, and whoever may
read the constant before or after it, at any time, reads the same. On a channel that the constant
has the write is denied, whoever asks; a requester to whom it is granted gets the error of the
channel where there is no such channel. -/
theorem constant_immune_to_writes (t : TableSet) (r : Registry) (hreach : Reachable t r)
    (q : Request) (d : Descriptor) (offset : Nat) (s : String)
    (hd : r.descriptor q.handle = .ok d) (hk : d.kind = .constant offset)
    (hq : q.direction = .write) :
    (∃ e, r.step (.text q s) = (.text (.error e) s, r) ∧
      (d.HasChannel q.channel → e = .accessDenied) ∧
      (r.Grants d q → ¬d.HasChannel q.channel →
        e = if d.vector then .invalidChannel else .notVector)) ∧
    ∃ text, r.AlwaysReads q.handle d text ∧ (r.step (.text q s)).2.AlwaysReads q.handle d text := by
  constructor
  · rw [step_write_constant hd hk hq]
    by_cases hchannel : d.HasChannel q.channel
    · rw [checkChannel_eq_ok.2 hchannel]
      exact ⟨.accessDenied, rfl, fun _ => rfl, fun _ hnone => absurd hchannel hnone⟩
    · rw [checkChannel_of_not_hasChannel hchannel]
      exact ⟨_, rfl, fun hsome => absurd hsome hchannel, fun _ _ => rfl⟩
  · obtain ⟨text, htext⟩ := hreach.belongs.exists_alwaysReads hd hk
    exact ⟨text, htext r hreach.belongs, htext _ (hreach.belongs.step _)⟩

/-- A requester without any capability writes to a constant that begins in the middle of a
character; its text is read as before. -/
theorem texts_constant_immune : ∃ r d, Reachable .texts r ∧ r.descriptor ⟨1⟩ = .ok d ∧
    d.kind = .constant 1 ∧
    r.step (.text ⟨⟨1⟩, .write, 0, ⟨0⟩⟩ "x") = (.text (.error .accessDenied) "x", r) ∧
    r.AlwaysReads ⟨1⟩ d "\uFFFDé" := by
  have hread : ((Registry.init .texts).toOption.bind fun r =>
      (r.descriptor ⟨1⟩).toOption.map fun d => (d, r.policy,
        ((text ⟨⟨1⟩, .read, 0, ⟨0x0011⟩⟩).outcome "" r).2.1)) =
      some (⟨⟨1⟩, none, .constant 1, 1, false, ⟨0x0011⟩, .ram, .default⟩, .exact,
        "\uFFFDé") := by
    decide +kernel
  obtain ⟨r, hr, hd⟩ := Option.bind_eq_some_iff.1 hread
  obtain ⟨d, hd, heq⟩ := Option.map_eq_some_iff.1 hd
  simp only [Prod.mk.injEq] at heq
  obtain ⟨rfl, hpolicy, htext⟩ := heq
  rw [toOption_eq_some] at hr hd
  obtain ⟨⟨e, hstep, hdenied, -⟩, s, halways, -⟩ := constant_immune_to_writes .texts r (.init hr)
    ⟨⟨1⟩, .write, 0, ⟨0⟩⟩ _ 1 "x" hd rfl rfl
  obtain rfl := hdenied (.inl rfl)
  -- what the constant always reads as is what it reads as now
  have hgranted : r.Grants ⟨⟨1⟩, none, .constant 1, 1, false, ⟨0x0011⟩, .ram, .default⟩
      ⟨⟨1⟩, .read, 0, ⟨0x0011⟩⟩ := by
    refine ⟨nofun, ?_⟩
    rw [hpolicy]
  have hnow : r.step (.text ⟨⟨1⟩, .read, 0, ⟨0x0011⟩⟩ "") = (.text (.ok ()) s, r) :=
    halways [] ⟨⟨1⟩, .read, 0, ⟨0x0011⟩⟩ "" rfl rfl (.inl rfl) hgranted
  obtain rfl : s = "\uFFFDé" := by
    simp only [step, Prod.mk.injEq, Reply.text.injEq] at hnow
    rw [← hnow.1.2, htext]
  exact ⟨r, _, .init hr, hd, rfl, hstep, halways⟩

/-- Not every write to a constant is answered with the denial: the error of a channel comes
first. -/
theorem constant_write_not_always_denied :
    ¬∀ (t : TableSet) (r : Registry) (q : Request) (d : Descriptor) (offset : Nat) (s : String),
      Reachable t r → r.descriptor q.handle = .ok d → d.kind = .constant offset →
        q.direction = .write → (r.step (.text q s)).1 = .text (.error .accessDenied) s := by
  intro hall
  have hwritten : ((Registry.init .texts).toOption.bind fun r =>
      (r.descriptor ⟨1⟩).toOption.map fun d => (d.kind,
        (r.step (.text ⟨⟨1⟩, .write, 1, ⟨0x0011⟩⟩ "x")).1.error?)) =
      some (.constant 1, some .notVector) := by
    decide +kernel
  obtain ⟨r, hr, hd⟩ := Option.bind_eq_some_iff.1 hwritten
  obtain ⟨d, hd, heq⟩ := Option.map_eq_some_iff.1 hd
  obtain ⟨hk, herror⟩ := Prod.mk.inj heq
  rw [hall .texts r ⟨⟨1⟩, .write, 1, ⟨0x0011⟩⟩ d 1 "x" (.init (toOption_eq_some.1 hr))
    (toOption_eq_some.1 hd) hk rfl] at herror
  cases herror

end VariableRegistry.Registry
