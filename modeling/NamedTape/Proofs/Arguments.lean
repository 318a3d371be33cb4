import NamedTape.CommandLine.Invocation

/-!
# What an accepted command line has said

The paths of an invocation are words of its command line. A setting is without a value only if a
word joins two dashes to an option by an equals sign (`sound_of_readArguments`). Both are followed
from the words to the items that they are read as, and from item to item.
-/

namespace NamedTape.CommandLine

variable {κ : Type}

/-- One of the words leaves the option that it names without a value. -/
def Voided (words : List String) : Prop := ∃ word ∈ words, ['=', '-', '-'] <:+ word.toList

/-- The options that take values have no names of one letter, to which text could be joined without
an equals sign. -/
def Spelled (table : List (Switch κ)) : Prop :=
  ∀ switch ∈ table, switch.takesValue = true → ∀ name ∈ switch.names, 2 < name.toList.length

section words

variable (table : List (Switch κ)) (words : List String)

/-- What a word has been recognized as is in the words. -/
def Word.Sound : Word κ → Prop
  | .plain text => text ∈ words
  | .option switch _ joined =>
    switch ∈ table ∧ (switch.takesValue = true → joined = some ['-', '-'] → Voided words)
  | .separator | .unknown _ => True

/-- What an item asks for is in the words. -/
def Item.Sound : Item κ → Prop
  | .plain text => text ∈ words
  | .option switch value =>
    switch ∈ table ∧ (switch.takesValue = true → value = none → Voided words)
  | .separator | .unknown _ | .bad _ => True

end words

variable {table : List (Switch κ)} {words : List String}

theorem named?_mem {name : List Char} {switch : Switch κ} (h : named? table name = some switch) :
    switch ∈ table ∧ String.ofList name ∈ switch.names :=
  ⟨List.mem_of_find?_eq_some h, by simpa using List.find?_some h⟩

theorem sound_unjoin (spelled : Spelled table) {switch : Switch κ} (hmem : switch ∈ table)
    (long : Bool) {text : List Char}
    (hvoid : switch.takesValue = true → text = ['-', '-'] → Voided words) :
    (∀ item ∈ (unjoin table switch long text).1, item.Sound table words) ∧
      ∀ last, (unjoin table switch long text).2 = some last → last ∈ table := by
  induction text generalizing switch long with
  | nil =>
    unfold unjoin
    split
    · exact ⟨by simp [Item.Sound, hmem], nofun⟩
    · exact ⟨by simp [Item.Sound], nofun⟩
  | cons c rest ih =>
    unfold unjoin
    split
    · refine ⟨?_, nofun⟩
      intro item hitem
      obtain rfl := List.mem_singleton.mp hitem
      refine ⟨hmem, fun takes hnone => hvoid takes ?_⟩
      simpa [joinedValue?] using hnone
    · have here : (Item.option switch none : Item κ).Sound table words :=
        ⟨hmem, fun takes => by contradiction⟩
      split
      · exact ⟨by simp [Item.Sound], nofun⟩
      · next flag hflag =>
        have hnamed : flag ∈ table ∧ flag.takesValue ≠ true := by
          split at hflag
          · cases hflag
          · obtain ⟨hmem', hname⟩ := named?_mem hflag
            exact ⟨hmem', fun takes => by simpa using spelled flag hmem' takes _ hname⟩
        cases rest with
        | nil => simp [here, hnamed.1]
        | cons d text =>
          have hmore := ih hnamed.1 false fun takes => absurd takes hnamed.2
          simpa [here] using hmore

/-- The items of a word are sound, and the option that has to look for its value is one of the
table. -/
theorem Word.Sound.items (spelled : Spelled table) {word : Word κ}
    (sound : word.Sound table words) :
    (∀ item ∈ (word.items table).1, item.Sound table words) ∧
      ∀ last, (word.items table).2 = some last → last ∈ table := by
  match word, sound with
  | .plain text, sound => exact ⟨fun _ hitem => List.mem_singleton.mp hitem ▸ sound, nofun⟩
  | .separator, _ | .unknown _, _ => exact ⟨by simp [Word.items, Item.Sound], nofun⟩
  | .option switch name none, sound => simpa [Word.items] using sound.1
  | .option switch name (some text), sound =>
    have hunjoin := sound_unjoin spelled sound.1 (name.startsWith "--")
      fun takes htext => sound.2 takes (congrArg some htext)
    unfold Word.items
    dsimp only
    split
    · exact hunjoin
    · exact ⟨fun item hitem => hunjoin.1 item (List.mem_filter.mp hitem).1, nofun⟩

section reader

variable {command : Command}

theorem takesValue_of_mem {switch : Switch Setting} (h : switch ∈ switches command)
    (tape : switch.meaning = .edgeRule ∨ switch.meaning = .cellRule ∨
      switch.meaning = .tapeSize) :
    switch.takesValue = true := by
  have every : ∀ command, ∀ switch ∈ switches command,
      (switch.meaning = .edgeRule ∨ switch.meaning = .cellRule ∨ switch.meaning = .tapeSize) →
        switch.takesValue = true := by
    intro command
    cases command <;> simp [switches, helpSwitch]
  exact every command switch h tape

/-- One of the settings of the tape is without a value. -/
def Invocation.Unset (inv : Invocation) : Prop :=
  inv.edgeRule = none ∨ inv.cellRule = none ∨ inv.tapeSize = none

/-- What an invocation says is in the words, as far as it has been read. -/
structure Reader.Sound (words : List String) (r : Reader) : Prop where
  program : r.stage ≠ .start → r.invocation.program ∈ words
  output : ∀ path, r.invocation.output = some path → path ∈ words
  settings : r.invocation.Unset → Voided words

/-- What succeeds as a whole has succeeded in each of its parts. -/
theorem ok_of_bind {ε α β : Type} {x : Except ε α} {f : α → Except ε β} {b : β}
    (h : x >>= f = .ok b) : ∃ a, x = .ok a ∧ f a = .ok b := by
  cases x with
  | error e => cases h
  | ok a => exact ⟨a, rfl, h⟩

theorem eq_none_of_mapM {ε α β : Type} {f : α → Except ε β} {value : Option α}
    (h : value.mapM f = .ok none) : value = none := by
  cases value with
  | none => rfl
  | some a => cases ha : f a <;> simp [ha, Functor.map, Except.map] at h

/-- An option leaves a setting of the tape without a value only if it has none itself. -/
theorem Invocation.set_keeps {inv inv' : Invocation} {switch : Switch Setting}
    {value : Option String} (hmem : switch ∈ switches command)
    (h : inv.set switch value = .ok inv') :
    inv'.program = inv.program ∧ inv'.output = inv.output ∧
      (inv'.Unset → inv.Unset ∨ switch.takesValue = true ∧ value = none) := by
  have takes := takesValue_of_mem hmem
  unfold Invocation.set at h
  cases hm : switch.meaning with
  | edgeRule =>
    rw [hm] at h
    obtain ⟨rule, hrule, hinv⟩ := ok_of_bind h
    cases hinv
    refine ⟨rfl, rfl, fun unset => ?_⟩
    obtain rfl | unset := unset
    · exact .inr ⟨takes (.inl hm), eq_none_of_mapM hrule⟩
    · exact .inl (.inr unset)
  | cellRule =>
    rw [hm] at h
    obtain ⟨rule, hrule, hinv⟩ := ok_of_bind h
    cases hinv
    refine ⟨rfl, rfl, fun unset => ?_⟩
    obtain unset | rfl | unset := unset
    · exact .inl (.inl unset)
    · exact .inr ⟨takes (.inr (.inl hm)), eq_none_of_mapM hrule⟩
    · exact .inl (.inr (.inr unset))
  | tapeSize =>
    rw [hm] at h
    obtain ⟨size, hsize, hinv⟩ := ok_of_bind h
    cases hinv
    refine ⟨rfl, rfl, fun unset => ?_⟩
    obtain unset | unset | rfl := unset
    · exact .inl (.inl unset)
    · exact .inl (.inr (.inl unset))
    · exact .inr ⟨takes (.inr (.inr hm)), eq_none_of_mapM hsize⟩
  | _ =>
    rw [hm] at h
    cases h
    exact ⟨rfl, rfl, .inl⟩

namespace Reader

theorem Sound.reject {r : Reader} (sound : r.Sound words) (text : String) :
    (r.reject text).Sound words :=
  ⟨sound.program, sound.output, sound.settings⟩

theorem Sound.endGroup {r : Reader} (sound : r.Sound words) : r.endGroup.Sound words := by
  refine ⟨fun hstage => sound.program fun hstart => hstage ?_, sound.output, sound.settings⟩
  simp [Reader.endGroup, hstart]

theorem Sound.readPlain {r : Reader} (sound : r.Sound words) {text : String}
    (hmem : text ∈ words) : (r.readPlain text).Sound words := by
  unfold Reader.readPlain
  cases hstage : r.stage with
  | start => exact ⟨fun _ => hmem, sound.output, sound.settings⟩
  | afterProgram =>
    have hprogram := sound.program (by simp [hstage])
    dsimp only
    split
    · refine ⟨fun _ => hprogram, fun path hpath => ?_, sound.settings⟩
      dsimp only at hpath
      split at hpath <;> cases hpath
      exact hmem
    · exact ⟨fun _ => hprogram, sound.output, sound.settings⟩
  | afterOutput | closed =>
    exact ⟨fun _ => sound.program (by simp [hstage]), sound.output, sound.settings⟩

theorem Sound.step {r r' : Reader} (sound : r.Sound words) {item : Item Setting}
    (hitem : item.Sound (switches command) words) (h : r.step item = .ok r') :
    r'.Sound words := by
  cases item with
  | plain text =>
    cases h
    exact sound.readPlain hitem
  | separator =>
    cases h
    split
    · exact sound.reject "--"
    · exact sound
  | unknown text =>
    cases h
    exact sound.endGroup.reject text
  | bad error => cases h
  | option switch value =>
    unfold Reader.step at h
    dsimp only at h
    split at h
    · cases h
    · split at h <;> cases h
      next invocation hset =>
      obtain ⟨hprogram, houtput, hunset⟩ := Invocation.set_keeps hitem.1 hset
      have ended := sound.endGroup
      refine ⟨fun hstage => hprogram ▸ ended.program hstage,
        fun path hpath => ended.output path (houtput ▸ hpath), fun unset => ?_⟩
      obtain unset | ⟨takes, hnone⟩ := hunset unset
      · exact sound.settings unset
      · exact hitem.2 takes hnone

theorem Sound.foldlM {r r' : Reader} (sound : r.Sound words) {items : List (Item Setting)}
    (hitems : ∀ item ∈ items, item.Sound (switches command) words)
    (h : items.foldlM Reader.step r = .ok r') : r'.Sound words := by
  induction items generalizing r with
  | nil => cases h; exact sound
  | cons item rest ih =>
    rw [List.foldlM_cons] at h
    obtain ⟨next, hstep, hrest⟩ := ok_of_bind h
    exact ih (sound.step (hitems item (.head _)) hstep)
      (fun item hitem => hitems item (.tail _ hitem)) hrest

end Reader

end reader

end NamedTape.CommandLine
