import Eliot.Citations.Resolve

namespace Citations
open Text List

section
variable {sources : List LabelSource} {source : LabelSource}

theorem blockMap_eq (source : LabelSource) (id : Nat) :
    blockMap source id = source.blocks.reverse.find? (·.id = id) := by
  unfold blockMap
  induction source.blocks using List.reverseRecOn with
  | nil => rfl
  | append_singleton blocks block ih =>
    rw [foldl_append, reverse_append]
    simp only [foldl_cons, foldl_nil, reverse_singleton, singleton_append,
      find?_cons, setKey]
    split <;> simp_all

theorem blockMap_some {id : Nat} {block : Block} :
    blockMap source id = some block ↔ InBlockMap source block ∧ block.id = id := by
  rw [blockMap_eq, find?_eq_some_iff_append]
  constructor
  · rintro ⟨same, after, before, shape, others⟩
    have same : block.id = id := by simpa using same
    refine ⟨⟨before.reverse, after.reverse, ?_, ?_⟩, same⟩
    · have back := congrArg List.reverse shape
      simpa using back
    · intro later member
      have apart := others later (mem_reverse.mp member)
      simpa [same] using apart
  · rintro ⟨⟨before, after, shape, others⟩, same⟩
    refine ⟨by simpa using same, after.reverse, before.reverse, by simp [shape], ?_⟩
    intro later member
    simpa [same] using others later (mem_reverse.mp member)

theorem groups_from (name : LabelSource → Text) (entries : List (LabelSource × Nat))
    (map : Text → Option (List Nat)) (wanted : Text) :
    entries.foldl (fun map entry =>
        setKey map (name entry.1) ((map (name entry.1)).getD [] ++ [entry.2])) map wanted =
      match (entries.filter (name ·.1 = wanted)).map Prod.snd with
      | [] => map wanted
      | places => some ((map wanted).getD [] ++ places) := by
  induction entries generalizing map with
  | nil => rfl
  | cons entry entries ih =>
    rw [foldl_cons, ih, filter_cons]
    by_cases same : name entry.1 = wanted
    · subst same
      cases rest : (entries.filter (name ·.1 = name entry.1)).map Prod.snd <;>
        simp [setKey, rest]
    · simp [setKey, same]

theorem groups_single {name : LabelSource → Text} {wanted : Text} {index : Nat} :
    groups name sources wanted = some [index] ↔
      ∃ source, name source = wanted ∧ OnlyNamed name sources index source := by
  have whole : groups name sources wanted = some [index] ↔
      (sources.zipIdx.filter (name ·.1 = wanted)).map Prod.snd = [index] := by
    unfold groups
    rw [groups_from]
    cases (sources.zipIdx.filter (name ·.1 = wanted)).map Prod.snd <;> simp
  rw [whole]
  have places : ∀ other rival, (rival, other) ∈ sources.zipIdx.filter (name ·.1 = wanted) ↔
      sources[other]? = some rival ∧ name rival = wanted := by
    intro other rival
    simp [mem_zipIdx_iff_getElem?]
  constructor
  · intro only
    obtain ⟨⟨source, place⟩, entry, found⟩ := map_eq_singleton_iff.mp only
    simp only at found
    subst found
    have here := (places place source).mp (by rw [entry]; exact mem_singleton_self _)
    refine ⟨source, here.2, here.1, fun other rival present same => ?_⟩
    have member := (places other rival).mpr ⟨present, same.trans here.2⟩
    rw [entry, mem_singleton] at member
    exact congrArg Prod.snd member
  · rintro ⟨source, rfl, present, only⟩
    have member := (places index source).mpr ⟨present, rfl⟩
    have nodup : ((sources.zipIdx.filter (name ·.1 = name source)).map Prod.snd).Nodup := by
      refine List.Nodup.sublist (filter_sublist.map _) ?_
      rw [zipIdx_map_snd]
      exact nodup_range'
    have all : ∀ place ∈ (sources.zipIdx.filter (name ·.1 = name source)).map Prod.snd,
        place = index := by
      intro place listed
      obtain ⟨⟨rival, other⟩, entry, rfl⟩ := mem_map.mp listed
      have found := (places other rival).mp entry
      exact only other rival found.1 found.2
    have some := mem_map_of_mem (f := Prod.snd) member
    match shape : (sources.zipIdx.filter (name ·.1 = name source)).map Prod.snd with
    | [] => simp [shape] at some
    | [place] =>
      rw [shape] at all
      rw [shape, all place (mem_singleton_self _)]
    | first :: second :: rest =>
      rw [shape] at all nodup
      have same := (all first (by simp)).trans (all second (by simp)).symm
      simp [same] at nodup

end

def Resolved.reference (resolved : Resolved) : Reference :=
  ⟨resolved.parsed.sourceIndex, resolved.source,
    ⟨resolved.parsed.block, resolved.parsed.start, resolved.parsed.stop⟩⟩

theorem lookup_some {sources : List LabelSource} {name : LabelSource → Text} {wanted : Text}
    {block : Nat} {parsed : ParsedLabel} :
    lookup (scopeMaps sources) (groups name sources wanted) block = some parsed ↔
      ∃ source, name source = wanted ∧ OnlyNamed name sources parsed.sourceIndex source ∧
        InBlockMap source ⟨block, parsed.start, parsed.stop⟩ ∧ parsed.block = block := by
  constructor
  · intro found
    unfold lookup at found
    split at found
    · rename_i index group
      obtain ⟨source, named, present, only⟩ := groups_single.mp group
      split at found
      · rename_i row entry
        cases found
        simp only [scopeMaps, getElem?_map, present, Option.map_some, Option.bind_some] at entry
        obtain ⟨listed, same⟩ := blockMap_some.mp entry
        subst same
        exact ⟨source, named, ⟨present, only⟩, listed, rfl⟩
      · cases found
    · cases found
  · rintro ⟨source, named, only, listed, same⟩
    have group := groups_single.mpr ⟨source, named, only⟩
    have entry := blockMap_some.mpr ⟨listed, rfl⟩
    have row : (scopeMaps sources).blockMaps[parsed.sourceIndex]?.bind (· block) =
        some ⟨block, parsed.start, parsed.stop⟩ := by
      simpa [scopeMaps, only.1] using entry
    unfold lookup
    simp only [group, row]
    subst same
    rfl

variable {token : Text}

theorem inner_eq {kind : Nat} {rest : Text} (nonempty : rest ≠ []) :
    inner token = kind :: rest ↔ token[1]? = some kind ∧ slice token 2 (token.length - 1) = rest := by
  match token with
  | [] => simp [Text.inner, slice]
  | [_] => simp [Text.inner, slice]
  | [_, _] => simp [Text.inner, slice, nonempty.symm]
  | _ :: second :: third :: token => simp [Text.inner, slice]

theorem colon_not_mem_digits {digits : Text} (plain : onlyDigits.test digits = true) :
    colon ∉ digits := by
  intro member
  have digit := (Regex.accepts_of_test plain).plus_one.2 colon member
  exact absurd digit (by decide)

theorem parseToken_some {sources : List LabelSource} {parsed : ParsedLabel} :
    parseToken token (scopeMaps sources) = some parsed ↔
      ∃ source, sources[parsed.sourceIndex]? = some source ∧
        Names sources token ⟨parsed.sourceIndex, source, ⟨parsed.block, parsed.start, parsed.stop⟩⟩ := by
  constructor
  · intro h
    unfold parseToken at h
    split at h
    · cases h
    · rename_i head tail split'
      obtain ⟨shape, -⟩ := splitLast_some split'
      have nonempty : head ++ colon :: tail ≠ [] := by simp
      split at h
      · cases h
      · rename_i digitsTail
        split at h
        · cases h
        · rename_i range
          have bounds : 0 < number tail ∧ number tail ≤ maxSafeInteger := by omega
          split at h
          · rename_i kind
            split at h
            · cases h
            · rename_i digitsHead
              obtain ⟨source, named, only, listed, same⟩ := lookup_some.mp h
              rw [← same] at listed bounds
              exact ⟨source, only.1, listed, bounds.1, bounds.2, head, tail, not_not.mp digitsTail,
                same.symm, .inl ⟨(inner_eq nonempty).mpr ⟨kind, shape⟩, not_not.mp digitsHead,
                  named, only⟩⟩
          · split at h
            · rename_i kind
              split at h
              · cases h
              · rename_i isUuid
                obtain ⟨source, named, only, listed, same⟩ := lookup_some.mp h
                rw [← same] at listed bounds
                exact ⟨source, only.1, listed, bounds.1, bounds.2, head, tail,
                  not_not.mp digitsTail, same.symm, .inr ⟨(inner_eq nonempty).mpr ⟨kind, shape⟩,
                    not_not.mp isUuid, named, only⟩⟩
            · cases h
  · rintro ⟨source, present, listed, positive, safe, head, tail, digitsTail, value, named⟩
    have nonempty : head ++ colon :: tail ≠ [] := by simp
    have plain := colon_not_mem_digits digitsTail
    have range : ¬(maxSafeInteger < number tail ∨ number tail < 1) := by
      rw [value]
      omega
    rcases named with ⟨content, digitsHead, aliased, only⟩ | ⟨content, isUuid, revision, only⟩
    · obtain ⟨kind, shape⟩ := (inner_eq nonempty).mp content
      have found := lookup_some.mpr ⟨source, aliased, only, listed, rfl⟩
      simp only [parseToken, shape, splitLast_append _ _ plain, digitsTail, range, kind, digitsHead,
        not_true_eq_false, if_false, if_true]
      rw [value]
      exact found
    · obtain ⟨kind, shape⟩ := (inner_eq nonempty).mp content
      have found := lookup_some.mpr ⟨source, revision, only, listed, rfl⟩
      have other : ¬some 82 = some 83 := by decide
      simp only [parseToken, shape, splitLast_append _ _ plain, digitsTail, range, kind, isUuid,
        other, not_true_eq_false, if_false, if_true]
      rw [value]
      exact found

section
variable {sources : List LabelSource}

def ResolvesTo (sources : List LabelSource) (atom : Text) (resolved : Resolved) : Prop :=
  Names sources atom resolved.reference ∧
    sources[resolved.parsed.sourceIndex]? = some resolved.source ∧ resolved.atom = atom

variable {atoms : List Text}

theorem resolveAtoms_complete {references : List Reference}
    (named : List.Forall₂ (Names sources) atoms references) :
    (resolveAtoms (scopeMaps sources) sources atoms).map (·.reference) = references := by
  induction named with
  | nil => rfl
  | @cons atom reference atoms references head tail ih =>
    have present : sources[reference.index]? = some reference.source := by
      obtain ⟨_, _, _, _, _, _, _, ⟨_, _, _, only⟩ | ⟨_, _, _, only⟩⟩ := head <;> exact only.1
    have parsed : parseToken atom (scopeMaps sources) =
        some ⟨reference.index, reference.block.id, reference.block.start, reference.block.stop⟩ :=
      parseToken_some.mpr ⟨reference.source, present, head⟩
    simp only [resolveAtoms, parsed, present, map_cons, ih]
    rfl

theorem resolveAtoms_sound
    (full : (resolveAtoms (scopeMaps sources) sources atoms).length = atoms.length) :
    List.Forall₂ (ResolvesTo sources) atoms (resolveAtoms (scopeMaps sources) sources atoms) := by
  induction atoms with
  | nil => exact .nil
  | cons atom atoms ih =>
    rw [resolveAtoms] at full ⊢
    split at full
    · cases full
    · rename_i parsed parsing
      obtain ⟨source, present, named⟩ := parseToken_some.mp parsing
      simp only [present] at full ⊢
      exact .cons ⟨named, present, rfl⟩ (ih (by simpa using full))

theorem resolved_named {resolved : List Resolved}
    (h : List.Forall₂ (ResolvesTo sources) atoms resolved) :
    List.Forall₂ (Names sources) atoms (resolved.map (·.reference)) ∧
      ∀ one ∈ resolved, ResolvesTo sources one.atom one := by
  induction h with
  | nil => exact ⟨.nil, by simp⟩
  | cons head _ ih =>
    refine ⟨.cons head.1 ih.1, fun one member => ?_⟩
    rcases mem_cons.mp member with rfl | member
    · exact head.2.2 ▸ head
    · exact ih.2 one member

theorem splitAdjacentPairToken_some
    (h : splitAdjacentPairToken token = some atoms) : ∃ first second, atoms = [first, second] := by
  unfold splitAdjacentPairToken at h
  split at h
  · exact ⟨_, _, (Option.some.inj h).symm⟩
  · cases h

theorem resolveToken_some {resolved : List Resolved}
    (h : resolveToken (scopeMaps sources) sources token = some resolved) :
    Resolves sources token (resolved.map (·.reference)) ∧
      ∀ one ∈ resolved, ResolvesTo sources one.atom one := by
  simp only [resolveToken, Option.ite_none_left_eq_some, not_or, not_not, Bool.not_eq_true,
    Option.some.injEq] at h
  obtain ⟨⟨full, adjacent⟩, rfl⟩ := h
  obtain ⟨named, each⟩ := resolved_named (resolveAtoms_sound full)
  refine ⟨?_, each⟩
  generalize resolveAtoms (scopeMaps sources) sources (atomsOf token) = resolved at *
  cases grouped : splitGroupToken token with
  | some atoms => exact .group grouped (by simpa [atomsOf, grouped] using named)
  | none =>
    cases paired : splitAdjacentPairToken token with
    | none =>
      have atoms : atomsOf token = [token] := by simp [atomsOf, grouped, paired]
      rw [atoms] at named full
      obtain ⟨one, rfl⟩ := length_eq_one_iff.mp full
      cases named with
      | cons named _ => exact .single grouped paired named
    | some atoms =>
      obtain ⟨first, second, rfl⟩ := splitAdjacentPairToken_some paired
      have atoms : atomsOf token = [first, second] := by simp [atomsOf, grouped, paired]
      rw [atoms] at named full
      obtain ⟨left, right, rfl⟩ := length_eq_two.mp full
      simp only [invalidAdjacentPair, grouped, paired, Option.isNone_none, Option.isSome_some,
        Bool.true_and, Bool.or_eq_false_iff, bne_eq_false_iff_eq] at adjacent
      cases named with
      | cons start rest =>
        cases rest with
        | cons stop _ => exact .pair grouped paired start stop adjacent.1 adjacent.2

theorem resolveToken_none
    (h : resolveToken (scopeMaps sources) sources token = none) : ¬Resolvable sources token := by
  rintro ⟨references, resolves⟩
  have fails : ∀ atoms, atomsOf token = atoms → List.Forall₂ (Names sources) atoms references →
      (∀ resolved : List Resolved, resolved.map (·.reference) = references →
        invalidAdjacentPair token resolved = false) → False := by
    rintro atoms rfl named adjacent
    have complete := resolveAtoms_complete named
    have full := congrArg List.length complete
    rw [length_map, ← named.length_eq] at full
    simp [resolveToken, full, adjacent _ complete] at h
  cases resolves with
  | group split named =>
    exact fails _ (by simp [atomsOf, split]) named (by simp [invalidAdjacentPair, split])
  | single whole apart named =>
    exact fails [token] (by simp [atomsOf, whole, apart]) (.cons named .nil)
      (by simp [invalidAdjacentPair, apart])
  | @pair first second left right whole split start stop same next =>
    refine fails [first, second] (by simp [atomsOf, whole, split]) (.cons start (.cons stop .nil)) ?_
    intro resolved shape
    obtain ⟨one, others, rfl, rfl, others_shape⟩ := map_eq_cons_iff.mp shape
    obtain ⟨two, none, rfl, rfl, none_shape⟩ := map_eq_cons_iff.mp others_shape
    rw [map_eq_nil_iff] at none_shape
    subst none_shape
    simp only [Resolved.reference] at same next
    simp [invalidAdjacentPair, same, next]

theorem resolvable_iff :
    Resolvable sources token ↔ (resolveToken (scopeMaps sources) sources token).isSome := by
  cases h : resolveToken (scopeMaps sources) sources token with
  | none => simpa using resolveToken_none h
  | some resolved => simpa using ⟨_, (resolveToken_some h).1⟩

instance (sources : List LabelSource) (token : Text) : Decidable (Resolvable sources token) :=
  decidable_of_iff _ resolvable_iff.symm

end

end Citations
