import CommonJs.Proofs.Value.NewCells
import CommonJs.Proofs.Value.Numbers

/-!
# JSON that becomes a value and JSON again

JSON becomes a value by making one new cell after the other, a part before the
whole that it is in; no other cell is changed. The walk through such a value
finds the JSON again. What a heap makes of any value is JSON that comes back as
it is.
-/

namespace CommonJs
namespace Heap

variable {heap : Heap} {json : Json} {value : Value}

/-! ## The value of JSON -/

/-- JSON becomes a value made of new cells; the other cells stay. -/
structure Makes (heap : Heap) (json : Json) : Prop where
  /-- The cells that were there stay. -/
  keeps : heap.KeepsCells (heap.ofJson json).2
  /-- The new cells hold the JSON. -/
  grown : (heap.ofJson json).2.Grown json (heap.ofJson json).1 heap.size
    (heap.ofJson json).2.size

/-- The values of parts, made one after the other. -/
structure MakesParts
    (heap : Heap)
    (parts : List Json)
    (bound : Nat → Nat) : Prop where
  /-- The cells that were there stay. -/
  keeps : heap.KeepsCells (heap.ofItems parts).2
  /-- The cells of the first part follow those that were there. -/
  first : bound 0 = heap.size
  /-- The cells of the last part are the last ones. -/
  last : bound parts.length = (heap.ofItems parts).2.size
  /-- Each part has one value. -/
  length_eq : parts.length = (heap.ofItems parts).1.length
  /-- The cells of a part lie between two bounds. -/
  each : ∀ (index : Nat) (part : Json) (item : Value),
    parts[index]? = some part →
    (heap.ofItems parts).1[index]? = some item →
    (heap.ofItems parts).2.Grown part item (bound index) (bound (index + 1))

/-- A cell is made after its parts. -/
theorem MakesParts.makes
    {cell : Cell}
    {bound : Nat → Nat}
    (made : heap.MakesParts json.parts bound)
    (same : json.Matches cell)
    (values : cell.values = (heap.ofItems json.parts).1)
    (whole : heap.ofJson json =
      (value, ((heap.ofItems json.parts).2.allocate cell).2))
    (isContainer : value.container? = some ⟨(heap.ofItems json.parts).2.size⟩)
    (found : ((heap.ofItems json.parts).2.allocate cell).2.inside? value =
      some cell) :
    heap.Makes json := by
  have keeps := keepsCells_allocate (heap.ofItems json.parts).2 cell
  have grown : ((heap.ofItems json.parts).2.allocate cell).2.Grown json value
      (bound 0)
      (bound json.parts.length + 1) := by
    apply Grown.whole (made.last ▸ isContainer) found same
    intro index part item isPart listed
    exact (made.each index part item isPart (values ▸ listed)).mono keeps
  rw [made.first, made.last, ← size_allocate _ cell] at grown
  refine ⟨?_, ?_⟩
  · rw [whole]
    exact made.keeps.trans keeps
  · rw [whole]
    exact grown

/-- Parts are made in turn, each behind the bound of those before. -/
theorem exists_makesParts
    (parts : List Json)
    (makes : ∀ part ∈ parts, ∀ heap : Heap, heap.Makes part)
    (heap : Heap) : ∃ bound, heap.MakesParts parts bound := by
  induction parts generalizing heap with
  | nil => exact ⟨fun _ => heap.size, .refl heap, rfl, rfl, rfl, nofun⟩
  | cons part parts inductionHypothesis =>
      have firstMade := makes part List.mem_cons_self heap
      obtain ⟨bound, others⟩ := inductionHypothesis
        (fun part present => makes part (List.mem_cons_of_mem _ present))
        (heap.ofJson part).2
      refine ⟨fun index => index.casesOn heap.size bound, ?_⟩
      refine
        { keeps := firstMade.keeps.trans others.keeps
          first := rfl
          last := others.last
          length_eq := congrArg Nat.succ others.length_eq
          each := fun index some item isPart listed => ?_ }
      cases index with
      | zero =>
          obtain rfl := Option.some.inj isPart
          obtain rfl := Option.some.inj listed
          show Grown _ _ _ heap.size (bound 0)
          rw [others.first]
          exact firstMade.grown.mono others.keeps
      | succ index => exact others.each index some item isPart listed

/-- Keys that are all different are added one after the other. -/
theorem ofMembers_eq
    (members : List (String × Json))
    (heap : Heap)
    (fields : Fields Value)
    (distinct : (fields.keys ++ members.map (·.1)).Nodup) :
    heap.ofMembers fields members =
      (⟨fields.entries ++
          (members.map (·.1)).zip (heap.ofItems (members.map (·.2))).1⟩,
        (heap.ofItems (members.map (·.2))).2) := by
  induction members generalizing heap fields with
  | nil => simp [ofMembers, ofItems]
  | cons member members inductionHypothesis =>
      obtain ⟨key, part⟩ := member
      have added : fields.set key (heap.ofJson part).1 =
          ⟨fields.entries ++ [(key, (heap.ofJson part).1)]⟩ := by
        have absent : ¬ fields.contains key := by
          intro present
          have listed : key ∈ fields.keys := by
            simpa [Fields.contains] using present
          exact (List.nodup_append.mp distinct).2.2 key listed key
            List.mem_cons_self rfl
        rw [Fields.set, if_neg absent]
      show (heap.ofJson part).2.ofMembers (fields.set key (heap.ofJson part).1)
        members = _
      rw [added, inductionHypothesis]
      · simp [ofItems]
      · simpa [Fields.keys] using distinct

/-- The value of JSON whose objects are in order is made of new cells. -/
theorem makes_ofJson
    (ordered : json.Ordered)
    (heap : Heap) : heap.Makes json := by
  induction ordered generalizing heap with
  | null => exact ⟨.refl heap, .leaf _ .null⟩
  | bool value => exact ⟨.refl heap, .leaf _ (.bool value)⟩
  | number value => exact ⟨.refl heap, .leaf _ (.number value)⟩
  | string value => exact ⟨.refl heap, .leaf _ (.string value)⟩
  | @array items _ inductionHypothesis =>
      obtain ⟨bound, made⟩ := exists_makesParts items inductionHypothesis heap
      exact made.makes (.array made.length_eq) rfl rfl rfl
        (inside?_allocate_array _ _)
  | @object members ascending _ inductionHypothesis =>
      have each : ∀ part ∈ members.map (·.2), ∀ heap : Heap,
          heap.Makes part := by
        intro part present
        obtain ⟨member, listed, rfl⟩ := List.mem_map.mp present
        exact inductionHypothesis member listed
      obtain ⟨bound, made⟩ := exists_makesParts _ each heap
      have distinct : (members.map (·.1)).Nodup :=
        List.pairwise_map.mpr (ascending.imp fun before => ne_of_lt before)
      have lengths : (members.map (·.1)).length =
          (heap.ofItems (members.map (·.2))).1.length := by
        rw [← made.length_eq, List.length_map, List.length_map]
      have fields :=
        ofMembers_eq members heap .empty (by simpa [Fields.keys, Fields.empty])
      rw [Fields.empty, List.nil_append] at fields
      have whole : heap.ofJson (.object members) =
          (.object ⟨(heap.ofItems (members.map (·.2))).2.size⟩,
            ((heap.ofItems (members.map (·.2))).2.allocate
              (.object ⟨(members.map (·.1)).zip
                (heap.ofItems (members.map (·.2))).1⟩)).2) := by
        rw [ofJson]
        simp only [Fields.empty, fields]
        rfl
      refine made.makes (.object ?_) ?_ whole rfl (inside?_allocate_object _ _)
      · exact (List.map_fst_zip (Nat.le_of_eq lengths)).symm
      · exact List.map_snd_zip (Nat.le_of_eq lengths.symm)

/-- The value of JSON and the heap with its cells: the JSON is found again, and
each array and each object is a new cell that stands at one place only and has
the keys of the JSON in the same order. -/
structure Restores
    (heap : Heap)
    (json : Json)
    (value : Value)
    (after : Heap) : Prop where
  /-- The value is read as the JSON. -/
  toJson_eq : after.toJson value = json
  /-- The cells that were there stay. -/
  keeps : heap.KeepsCells after
  /-- The cells in the value are new. -/
  fresh : ∀ position enclosing held handle,
    after.Occurs value position enclosing held → held.container? = some handle →
      heap.size ≤ handle.index
  /-- No cell is met at two places. -/
  once : ∀ position enclosing held otherPosition otherEnclosing other handle,
    after.Occurs value position enclosing held → held.container? = some handle →
      after.Occurs value otherPosition otherEnclosing other →
        other.container? = some handle →
        position = otherPosition
  /-- The fields of objects are in the order of the JSON. -/
  keys : ∀ position enclosing handle,
    after.Occurs value position enclosing (.object handle) →
      ∃ members fields, json.at? position = some (.object members) ∧
        after.cell? handle = some (.object fields) ∧
          fields.keys = members.map (·.1)

/-- A value that was made of JSON restores it. -/
theorem restores_ofJson
    (ordered : json.Ordered)
    (steady : json.Steady)
    (heap : Heap) :
    heap.Restores json (heap.ofJson json).1 (heap.ofJson json).2 := by
  obtain ⟨keeps, grown⟩ := makes_ofJson ordered heap
  refine
    { toJson_eq := ?_
      keeps := keeps
      fresh :=
        fun _ _ _ _ occurs isHeld => (grown.reaches (occurs.reaches isHeld)).1
      once := fun _ _ _ _ _ _ _ occurs isHeld otherOccurs isOther =>
        grown.position_eq occurs isHeld otherOccurs isOther
      keys := fun position enclosing handle occurs => ?_ }
  · rw [toJson, Rendering.toJsonWithin_eq]
    exact ((grown.plain ordered steady).eq_walkWithin grown.acyclic _ []
      (Rendering.distinct_nil _) (Nat.le_refl _) (.here _)).symm
  · obtain ⟨part, low, high, stands, grown⟩ := grown.at? occurs
    obtain ⟨members, fields, rfl, found, keys⟩ := grown.keys
    exact ⟨members, fields, stands, found, keys⟩

end Heap

/-! ## The JSON of a value -/

/-- A number is written as a number or not at all. -/
theorem numberToJson_cases (number : Float) :
    numberToJson number = .null ∨
      ∃ leaf, numberToJson number = .number leaf := by
  unfold numberToJson
  split_ifs
  · exact .inr ⟨_, rfl⟩
  · exact .inr ⟨_, rfl⟩
  · exact .inl rfl

/-- A value becomes JSON with its objects in order, and with numbers that are
written as they are read. -/
theorem Heap.ordered_and_steady_toJson (heap : Heap) (value : Value) :
    (heap.toJson value).Ordered ∧ (heap.toJson value).Steady := by
  rw [toJson, Rendering.toJsonWithin_eq]
  refine Rendering.of_walkWithin (fun json : Json => json.Ordered ∧ json.Steady)
    (fun value => ?_) ⟨.null, .null⟩ (fun cell parts each => ?_) _ _ value
  · cases value with
    | bool value => exact ⟨.bool value, .bool value⟩
    | string value => exact ⟨.string value, .string value⟩
    | number number =>
        show (numberToJson number).Ordered ∧ (numberToJson number).Steady
        rcases numberToJson_cases number with nothing | ⟨leaf, written⟩
        · rw [nothing]
          exact ⟨.null, .null⟩
        · rw [written]
          exact ⟨.number leaf, .number (numberToJson_toFloat written)⟩
    | _ => exact ⟨.null, .null⟩
  · cases cell with
    | array items =>
        exact ⟨.array fun part present => (each part present).1,
          .array fun part present => (each part present).2⟩
    | object fields =>
        have eachMember : ∀ member ∈ Json.sortMembers (fields.keys.zip parts),
            member.2.Ordered ∧ member.2.Steady := fun member present =>
          each member.2
            (List.of_mem_zip (Json.mem_of_mem_sortMembers present)).2
        exact ⟨.object (Json.ascending_sortMembers _) fun member present =>
            (eachMember member present).1,
          .object fun member present => (eachMember member present).2⟩
    | host content => exact ⟨.null, .null⟩

/-- JSON that is made of a value becomes a value with the same JSON. So does
any JSON with its objects in order whose numbers are written as they are read,
as integers are that floats hold exactly; and the value is made of new cells,
each at one place. -/
theorem json_values_round_trip :
    (∀ (heap : Heap) (value : Value),
      (heap.ofJson (heap.toJson value)).2.toJson
          (heap.ofJson (heap.toJson value)).1 =
        heap.toJson value) ∧
    (∀ (heap : Heap) (json : Json), json.Ordered → json.Steady →
      heap.Restores json (heap.ofJson json).1 (heap.ofJson json).2) ∧
    ∀ value : Int, value.natAbs ≤ 2 ^ 53 - 1 →
      (Json.number (.integer value)).Steady := by
  refine ⟨fun heap value => ?_, fun heap json ordered steady => ?_,
    fun value small => ?_⟩
  · obtain ⟨ordered, steady⟩ := heap.ordered_and_steady_toJson value
    exact (Heap.restores_ofJson ordered steady heap).toJson_eq
  · exact Heap.restores_ofJson ordered steady heap
  · exact .number (numberToJson_ofInt (by omega))

/-- An array and an object in an object are found again. -/
theorem json_values_round_trip_nestedObject :
    let json : Json :=
      .object [("a", .array [.number (.integer 1), .null]), ("b", .object [])]
    json.Ordered ∧ json.Steady ∧
      Heap.empty.Restores json (Heap.empty.ofJson json).1
        (Heap.empty.ofJson json).2 := by
  intro json
  have ordered : json.Ordered := by
    refine .object (List.pairwise_pair.mpr (by decide +kernel))
      fun member present => ?_
    rcases List.mem_pair.mp present with rfl | rfl
    · exact .array (List.forall_mem_cons.mpr
        ⟨.number _, List.forall_mem_singleton.mpr .null⟩)
    · exact .object .nil nofun
  have steady : json.Steady := by
    refine .object fun member present => ?_
    rcases List.mem_pair.mp present with rfl | rfl
    · have one := json_values_round_trip.2.2 1 (by decide)
      exact .array
        (List.forall_mem_cons.mpr ⟨one, List.forall_mem_singleton.mpr .null⟩)
    · exact .object nofun
  exact ⟨ordered, steady, json_values_round_trip.2.1 .empty json ordered steady⟩

end CommonJs
