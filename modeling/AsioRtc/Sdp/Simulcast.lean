/-
# Simulcast and restriction identifiers are read back

`parse_simulcast` and `parse_rid` of `src/sdp.cpp` against what `to_string` writes for
their results.  The loops over layers and streams cut their text at semicolons and
commas (`parseSimulcastLayers_eq`, `parseSimulcastGroup_eq`).  The streams of one
direction end at the keyword of the other one, so that a text for `send` has no
` recv` in it, and a text for `recv` no ` send` (`SdpSimulcast.WellFormed`).

The parameters of a restriction identifier are put into a map; they are written in
the order of its keys, behind the payload types.

`SdpSimulcast.Plain` and `SdpRid.Plain` say the same of a value by its characters, and
such a value comes back (`simulcast_rid_roundTrip`).
-/

import AsioRtc.Sdp.ReadBack

namespace AsioRtc

open Lib Text

variable {v : Text}

/-! ### Layers -/

/-- The streams that a token stands for. -/
def streamOf : Text → List SdpSimulcastStream
  | [] => []
  | c :: s => if c = '~' then [{ rid := s, paused := true }] else [{ rid := c :: s }]

/-- The checked reading of a token never leaves it, and gives its stream. -/
theorem simulcastStream_eq (token : Text) : simulcastStream token = .ok (streamOf token) := by
  cases token with
  | nil => rfl
  | cons c s =>
    rw [simulcastStream, if_neg (by simp), charAt_ok (by simp), removePrefix_ok (by simp)]
    simp only [Checked.ok_bind, streamOf, List.getElem_cons_zero]
    split <;> rfl

/-- The streams of a layer. -/
def layerOf (group : Text) : List SdpSimulcastStream :=
  (pieces (· == ',') group).flatMap fun token => streamOf (strip token)

/-- The layers of a text. -/
def layersOf (str : Text) : List (List SdpSimulcastStream) :=
  ((pieces (· == ';') str).map layerOf).filter (· ≠ [])

section Loops

variable {c : Char} {s a b : Text}

/-- A text without the separator is one piece. -/
theorem whole_of_cutOff_none (h : cutOff s c = none) : Whole (· == c) s := by
  have hc : c ∉ s := by
    rw [← cutOff_isSome, h]
    simp
  exact fun x hx => beq_eq_false_iff_ne.2 fun hxc => hc (hxc ▸ hx)

/-- The pieces of a text that is cut: the part in front, unless it is empty, and those of the rest.
-/
theorem pieces_of_cutOff (h : cutOff s c = some (a, b)) :
    pieces (· == c) s = (if a = [] then [] else [a]) ++ pieces (· == c) b := by
  obtain ⟨rfl, ha⟩ := cutOff_iff.1 h
  exact pieces_append_cons (fun x hx => beq_eq_false_iff_ne.2 fun hxc => ha (hxc ▸ hx)) (by simp)

/-- The first token of a layer. -/
theorem layerOf_of_cutOff (h : cutOff s ',' = some (a, b)) :
    layerOf s = streamOf (strip a) ++ layerOf b := by
  rw [layerOf, pieces_of_cutOff h]
  split
  · rename_i ha
    rw [ha]
    rfl
  · simp [layerOf]

/-- The first layer of a text. -/
theorem layersOf_of_cutOff (h : cutOff s ';' = some (a, b)) :
    layersOf s = (if layerOf a = [] then [] else [layerOf a]) ++ layersOf b := by
  rw [layersOf, pieces_of_cutOff h]
  by_cases ha : a = []
  · rw [ha]
    rfl
  · by_cases hl : layerOf a = [] <;> simp [layersOf, ha, hl]

/-- **What the inner loop computes.** -/
theorem parseSimulcastGroup_eq (group : Text) : parseSimulcastGroup group = .ok (layerOf group) := by
  have h : (parseSimulcastGroup group).Yields fun l => l = layerOf group := by
    refine Checked.loop_yields (I := fun st => st.2 ++ layerOf st.1 = layerOf group)
      (fun st => st.1.length) (fun st hst => ?_) (by simp) (by simp)
    unfold simulcastGroupTurn
    split
    · rename_i hnil
      refine Checked.yields_done.2 ?_
      rw [← hst, hnil]
      simp [layerOf]
    · rename_i hne
      simp only [cut_eq, trim_eq, simulcastStream_eq, Checked.ok_bind]
      cases hc : cutOff st.1 ',' with
      | none =>
        refine Checked.yields_done.2 ?_
        rw [← hst, layerOf, pieces_whole (whole_of_cutOff_none hc) hne]
        simp
      | some p =>
        refine Checked.yields_next.2 ⟨?_, length_of_cutOff hc⟩
        rw [← hst, layerOf_of_cutOff hc, List.append_assoc]
  obtain ⟨l, hl, rfl⟩ := h
  exact hl

/-- **What the outer loop computes.** -/
theorem parseSimulcastLayers_eq (str : Text) : parseSimulcastLayers str = .ok (layersOf str) := by
  have h : (parseSimulcastLayers str).Yields fun l => l = layersOf str := by
    refine Checked.loop_yields (I := fun st => st.2 ++ layersOf st.1 = layersOf str)
      (fun st => st.1.length) (fun st hst => ?_) (by simp) (by simp)
    unfold simulcastLayersTurn
    split
    · rename_i hnil
      refine Checked.yields_done.2 ?_
      rw [← hst, hnil]
      simp [layersOf]
    · rename_i hne
      simp only [cut_eq, parseSimulcastGroup_eq, Checked.ok_bind]
      cases hc : cutOff st.1 ';' with
      | none =>
        refine Checked.yields_done.2 ?_
        rw [← hst, layersOf, pieces_whole (whole_of_cutOff_none hc) hne]
        by_cases hl : layerOf st.1 = [] <;> simp [hl]
      | some p =>
        refine Checked.yields_next.2 ⟨?_, length_of_cutOff hc⟩
        rw [← hst, layersOf_of_cutOff hc]
        by_cases hl : layerOf p.1 = [] <;> simp [hl]
  obtain ⟨l, hl, rfl⟩ := h
  exact hl

end Loops

/-- A stream that its text stands for. -/
structure SdpSimulcastStream.WellFormed (stream : SdpSimulcastStream) : Prop where
  trimmed : Trimmed stream.text
  text_ne : stream.text ≠ []
  comma : ',' ∉ stream.text
  semicolon : ';' ∉ stream.text
  mark : stream.paused = false → stream.rid.head? ≠ some '~'

/-- A stream is read back, paused or not. -/
theorem SdpSimulcastStream.WellFormed.streamOf_text {stream : SdpSimulcastStream}
    (h : stream.WellFormed) : streamOf stream.text = [stream] := by
  obtain ⟨rid, paused⟩ := stream
  cases paused with
  | true => rfl
  | false =>
    cases rid with
    | nil => exact absurd rfl h.text_ne
    | cons c s =>
      have hc : c ≠ '~' := fun h0 => h.mark rfl (by rw [h0]; rfl)
      exact if_neg hc

/-- The layers of one direction, without the keyword of the other one in their text. -/
structure LayersWellFormed (other : Text) (layers : List (List SdpSimulcastStream)) : Prop where
  layer : ∀ layer ∈ layers, layer ≠ [] ∧ ∀ stream ∈ layer, stream.WellFormed
  keyword : ¬ (' ' :: other) <:+: simulcastLayersText layers

/-- The text of a layer. -/
def layerText (layer : List SdpSimulcastStream) : Text :=
  [','].intercalate (layer.map SdpSimulcastStream.text)

/-- **The separators the printer leaves** are those between streams and between layers. -/
theorem simulcastLayersText_eq {layers : List (List SdpSimulcastStream)}
    (h : ∀ layer ∈ layers, layer ≠ []) :
    simulcastLayersText layers = [';'].intercalate (layers.map layerText) := by
  have hlayer : ∀ (layer : List SdpSimulcastStream) (s : Text),
      layer.foldl (fun s stream => s ++ stream.text ++ [',']) s =
        s ++ (layer.map SdpSimulcastStream.text).flatMap (· ++ [',']) := by
    intro layer
    induction layer with
    | nil => simp
    | cons stream layer ih =>
      intro s
      rw [List.foldl_cons, ih, List.map_cons, List.flatMap_cons]
      simp only [List.append_assoc]
  have hlayers : ∀ s : Text, layers.foldl
      (fun s layer =>
        if layer = [] then s
        else (layer.foldl (fun s stream => s ++ stream.text ++ [',']) s).dropLast ++ [';']) s =
        s ++ (layers.map layerText).flatMap (· ++ [';']) := by
    induction layers with
    | nil => simp
    | cons layer layers ih =>
      obtain ⟨hne, h⟩ := List.forall_mem_cons.1 h
      intro s
      have hflat : (layer.map SdpSimulcastStream.text).flatMap (· ++ [',']) ≠ [] := by
        obtain ⟨stream, layer, rfl⟩ := List.exists_cons_of_ne_nil hne
        simp
      rw [List.foldl_cons, if_neg hne, hlayer, List.dropLast_append_of_ne_nil hflat,
        dropLast_flatMap_concat, ih h]
      simp [layerText]
  rw [simulcastLayersText, hlayers, List.nil_append, dropLast_flatMap_concat]

namespace LayersWellFormed

variable {other : Text} {layers : List (List SdpSimulcastStream)}

/-- No layer is empty, so the text is the layers with separators between them. -/
theorem text_eq (h : LayersWellFormed other layers) :
    simulcastLayersText layers = [';'].intercalate (layers.map layerText) :=
  simulcastLayersText_eq fun l hl => (h.layer l hl).1

/-- The text of a layer is a piece: not empty, trimmed and without a semicolon. -/
theorem layerText_piece (h : LayersWellFormed other layers) :
    ∀ t ∈ layers.map layerText, t ≠ [] ∧ Trimmed t ∧ ';' ∉ t := by
  intro t ht
  obtain ⟨layer, hl, rfl⟩ := List.mem_map.1 ht
  obtain ⟨hne, hstream⟩ := h.layer layer hl
  have hall : ∀ w ∈ layer.map SdpSimulcastStream.text, w ≠ [] ∧ Trimmed w := by
    intro w hw
    obtain ⟨stream, hs, rfl⟩ := List.mem_map.1 hw
    exact ⟨(hstream stream hs).text_ne, (hstream stream hs).trimmed⟩
  refine ⟨?_, trimmed_intercalate (by decide) hall, fun hm => ?_⟩
  · obtain ⟨stream, rest, rfl⟩ := List.exists_cons_of_ne_nil hne
    have := (hstream stream (List.mem_cons_self ..)).text_ne
    simp [layerText, intercalate_cons_eq, this]
  · obtain ⟨w, hw, hin⟩ := infix_intercalate (n := [';']) (c := ',')
      ((List.singleton_infix_iff _ _).2 hm) (by decide) (by simp)
    obtain ⟨stream, hs, rfl⟩ := List.mem_map.1 hw
    exact (hstream stream hs).semicolon ((List.singleton_infix_iff _ _).1 hin)

/-- The text of the layers. -/
theorem trimmed_text (h : LayersWellFormed other layers) : Trimmed (simulcastLayersText layers) :=
  h.text_eq ▸ trimmed_intercalate (by decide) fun t ht =>
    ⟨(h.layerText_piece t ht).1, (h.layerText_piece t ht).2.1⟩

/-- Where there are layers, there is text. -/
theorem text_ne (h : LayersWellFormed other layers) (hne : layers ≠ []) :
    simulcastLayersText layers ≠ [] := by
  obtain ⟨layer, rest, rfl⟩ := List.exists_cons_of_ne_nil hne
  have := (h.layerText_piece (layerText layer) (by simp)).1
  simp [h.text_eq, intercalate_cons_eq, this]

/-- **Layers are read back.** -/
theorem layersOf_text (h : LayersWellFormed other layers) :
    layersOf (simulcastLayersText layers) = layers := by
  have hlayer : ∀ layer ∈ layers, layerOf (layerText layer) = layer := by
    intro layer hl
    obtain ⟨-, hstream⟩ := h.layer layer hl
    have hpieces : pieces (· == ',') (layerText layer) = layer.map SdpSimulcastStream.text := by
      refine pieces_intercalate (by simp) fun w hw => ?_
      obtain ⟨stream, hs, rfl⟩ := List.mem_map.1 hw
      exact ⟨(hstream stream hs).text_ne, fun c hc => beq_eq_false_iff_ne.2 fun h0 =>
        (hstream stream hs).comma (h0 ▸ hc)⟩
    rw [layerOf, hpieces, List.flatMap_map]
    refine (List.flatMap_congr fun stream hs => ?_).trans (List.flatMap_singleton' layer)
    rw [(hstream stream hs).trimmed.strip_eq, (hstream stream hs).streamOf_text]
  have hpieces : pieces (· == ';') (simulcastLayersText layers) = layers.map layerText := by
    rw [h.text_eq]
    refine pieces_intercalate (by simp) fun t ht => ?_
    exact ⟨(h.layerText_piece t ht).1, fun c hc => beq_eq_false_iff_ne.2 fun h0 =>
      (h.layerText_piece t ht).2.2 (h0 ▸ hc)⟩
  have hmap : (layers.map layerText).map layerOf = layers := by
    rw [List.map_map]
    exact (List.map_congr_left hlayer).trans (List.map_id layers)
  rw [layersOf, hpieces, hmap, List.filter_eq_self]
  intro layer hl
  simpa using (h.layer layer hl).1

end LayersWellFormed

/-- **The layers of a text** without the keyword of the other direction. -/
theorem layersOf_wellFormed {other s : Text} (hc : ',' ∉ other) (hsc : ';' ∉ other)
    (hnl : '\n' ∉ s) (hkey : ¬ (' ' :: other) <:+: s) : LayersWellFormed other (layersOf s) := by
  -- The text of a stream is a part of `s` between separators.
  have hstream : ∀ layer ∈ layersOf s, layer ≠ [] ∧ ∀ stream ∈ layer,
      stream.WellFormed ∧ stream.text <:+: s := by
    intro layer hl
    obtain ⟨hl, hne⟩ := List.mem_filter.1 hl
    obtain ⟨group, hg, rfl⟩ := List.mem_map.1 hl
    obtain ⟨-, hgw, hgs⟩ := mem_pieces group hg
    refine ⟨by simpa using hne, fun stream hs => ?_⟩
    obtain ⟨token, ht, hs⟩ := List.mem_flatMap.1 hs
    obtain ⟨-, htw, htg⟩ := mem_pieces token ht
    have hin := (strip_within token).trans (htg.trans hgs)
    have hsub : strip token ⊆ token := (strip_within token).subset
    have hcomma : ',' ∉ strip token := fun hm => by simpa using htw _ (hsub hm)
    have hsemi : ';' ∉ strip token := fun hm => by simpa using hgw _ (htg.subset (hsub hm))
    have htrim : Trimmed (strip token) :=
      ⟨⟨endsClean_strip token, fun hm => hnl (hin.subset hm)⟩, startsClean_strip token⟩
    have htext : stream.text = strip token ∧ strip token ≠ [] ∧
        (stream.paused = false → stream.rid.head? ≠ some '~') := by
      cases hst : strip token with
      | nil => simp [hst, streamOf] at hs
      | cons c t =>
        rw [hst, streamOf] at hs
        split at hs
        · rename_i hc
          obtain rfl := List.mem_singleton.1 hs
          exact ⟨by rw [hc]; rfl, by simp, by simp⟩
        · rename_i hc
          obtain rfl := List.mem_singleton.1 hs
          exact ⟨rfl, by simp, by simpa using hc⟩
    obtain ⟨htext, htne, hmark⟩ := htext
    rw [← htext] at hin hcomma hsemi htrim htne
    exact ⟨⟨htrim, htne, hcomma, hsemi, hmark⟩, hin⟩
  refine ⟨fun layer hl => ⟨(hstream layer hl).1, fun st hs => ((hstream layer hl).2 st hs).1⟩, ?_⟩
  rw [simulcastLayersText_eq fun l hl => (hstream l hl).1]
  intro h
  obtain ⟨t, ht, h⟩ := infix_intercalate h (by simp [hsc]) (by simp)
  obtain ⟨layer, hl, rfl⟩ := List.mem_map.1 ht
  obtain ⟨w, hw, h⟩ := infix_intercalate h (by simp [hc]) (by simp)
  obtain ⟨stream, hs, rfl⟩ := List.mem_map.1 hw
  exact hkey (h.trans ((hstream layer hl).2 stream hs).2)

/-! ### Both directions -/

namespace SdpSimulcast

/-- Each direction ends at the keyword of the other one. -/
structure WellFormed (attr : SdpSimulcast) : Prop where
  send : LayersWellFormed "recv".toList attr.sendLayers
  recv : LayersWellFormed "send".toList attr.recvLayers

/-- Without layers, there is nothing that could be wrong. -/
theorem wellFormed_empty : WellFormed {} :=
  have h (other : Text) : LayersWellFormed other [] := ⟨by simp, by simp [simulcastLayersText]⟩
  ⟨h _, h _⟩

end SdpSimulcast

/-- The layers that are read of one direction are well formed, and what is left stays on its line.
-/
theorem simulcastSide_wellFormed (other : Text) {rest : Text} (hc : ',' ∉ other)
    (hsc : ';' ∉ other) (hnl : '\n' ∉ rest) :
    (simulcastSide other rest).Yields fun r =>
      LayersWellFormed other r.1 ∧ ∀ v, r.2 = some v → '\n' ∉ v := by
  unfold simulcastSide
  cases h : findText (' ' :: other) rest with
  | none =>
    simp only [trim_eq, parseSimulcastLayers_eq, Checked.ok_bind]
    refine Checked.yields_pure.2 ⟨layersOf_wellFormed hc hsc ?_ ?_, by simp⟩
    · exact fun hm => hnl ((strip_within rest).subset hm)
    · exact fun hin => findText_eq_none.1 h (hin.trans (strip_within rest))
  | some next =>
    have hle := findText_le h
    rw [List.length_cons] at hle
    simp only [substr_take, substr_ok (show next + 1 ≤ rest.length by omega), trim_eq,
      parseSimulcastLayers_eq, Checked.ok_bind]
    refine Checked.yields_pure.2 ⟨layersOf_wellFormed hc hsc ?_ ?_, ?_⟩
    · exact fun hm => hnl (List.mem_of_mem_take ((strip_within _).subset hm))
    · exact fun hin => not_infix_take (by simp) h (hin.trans (strip_within _))
    · rintro v hv hm
      obtain rfl := Option.some.inj hv
      exact hnl (List.mem_of_mem_drop hm)

/-- **What `parse_simulcast` reads.** -/
theorem parseSimulcast_wellFormed {attr : SdpSimulcast} (hnl : '\n' ∉ v)
    (h : parseSimulcast v = .ok attr) : attr.WellFormed := by
  rw [parseSimulcast, trim_eq, Checked.ok_bind] at h
  refine Checked.loop_ok (I := fun st => '\n' ∉ st.1 ∧ st.2.WellFormed) ?_
    ⟨fun hm => hnl ((strip_within v).subset hm), SdpSimulcast.wellFormed_empty⟩ h
  rintro ⟨s, attr⟩ r ⟨hs, hattr⟩ hr
  unfold simulcastTurn at hr
  split at hr
  · obtain rfl := Except.ok.inj hr
    exact hattr
  · obtain ⟨token, -, hr⟩ := Checked.bind_eq_ok.1 hr
    obtain ⟨rest, hrest, hr⟩ := Checked.bind_eq_ok.1 hr
    have hrest : '\n' ∉ rest := by
      unfold simulcastRest at hrest
      split at hrest
      · obtain rfl := Except.ok.inj hrest
        exact List.not_mem_nil
      · obtain ⟨t, ht, hrest⟩ := Checked.bind_eq_ok.1 hrest
        rw [trim_eq] at hrest
        obtain rfl := Except.ok.inj hrest
        unfold substr at ht
        split at ht
        · obtain rfl := Except.ok.inj ht
          exact fun hm => hs (List.mem_of_mem_drop ((strip_within _).subset hm))
        · cases ht
    have hnext : ∀ a : SdpSimulcast, a.WellFormed → ∀ o : Option Text, (∀ v, o = some v → '\n' ∉ v) →
        (simulcastNext a o).Holds (fun st => '\n' ∉ st.1 ∧ st.2.WellFormed)
          SdpSimulcast.WellFormed := by
      intro a ha o ho
      cases o with
      | none => exact ha
      | some v => exact ⟨ho v rfl, ha⟩
    split at hr
    · obtain ⟨p, hp, hr⟩ := Checked.bind_eq_ok.1 hr
      obtain ⟨p', hp', hwf, hv⟩ :=
        simulcastSide_wellFormed "recv".toList (by decide) (by decide) hrest
      obtain rfl := Except.ok.inj (hp.symm.trans hp')
      obtain rfl := Except.ok.inj hr
      have ha : ({ attr with sendLayers := p.1 } : SdpSimulcast).WellFormed := ⟨hwf, hattr.recv⟩
      exact hnext _ ha _ hv
    split at hr
    · obtain ⟨p, hp, hr⟩ := Checked.bind_eq_ok.1 hr
      obtain ⟨p', hp', hwf, hv⟩ :=
        simulcastSide_wellFormed "send".toList (by decide) (by decide) hrest
      obtain rfl := Except.ok.inj (hp.symm.trans hp')
      obtain rfl := Except.ok.inj hr
      have ha : ({ attr with recvLayers := p.1 } : SdpSimulcast).WellFormed := ⟨hattr.send, hwf⟩
      exact hnext _ ha _ hv
    · obtain rfl := Except.ok.inj hr
      exact hattr

section ReadBack

variable {attr : SdpSimulcast} {layers : List (List SdpSimulcastStream)}

/-- A direction by itself. -/
theorem LayersWellFormed.simulcastSide_text {other : Text} (h : LayersWellFormed other layers) :
    simulcastSide other (simulcastLayersText layers) = .ok (layers, none) := by
  rw [simulcastSide, findText_eq_none.2 h.keyword]
  simp only [trim_eq, h.trimmed_text.strip_eq, parseSimulcastLayers_eq, h.layersOf_text,
    Checked.ok_bind]
  rfl

/-- A direction with the other one behind it. -/
theorem LayersWellFormed.simulcastSide_append {other rest : Text} (h : LayersWellFormed other layers)
    (ho : ' ' ∉ other) :
    simulcastSide other (simulcastLayersText layers ++ ' ' :: other ++ rest) =
      .ok (layers, some (other ++ rest)) := by
  rw [simulcastSide, findText_append ho h.keyword, List.append_assoc]
  have hdrop : (simulcastLayersText layers ++ (' ' :: other ++ rest)).drop
      ((simulcastLayersText layers).length + 1) = other ++ rest := by
    rw [← List.drop_drop, List.drop_left]
    rfl
  simp only [substr_take, List.take_left, trim_eq, h.trimmed_text.strip_eq,
    parseSimulcastLayers_eq, h.layersOf_text, Checked.ok_bind]
  rw [substr_ok (by simp), hdrop]
  rfl

/-- The first token of a text, and the rest. -/
theorem simulcast_token {token rest : Text} (hb : ' ' ∉ token) (hrest : Trimmed rest) :
    firstToken (token ++ ' ' :: rest) = .ok token ∧
      simulcastRest (token ++ ' ' :: rest) token = .ok rest := by
  constructor
  · rw [firstToken, find_append hb]
    simp only [substr_take, List.take_left]
  · have hdrop : (token ++ ' ' :: rest).drop (token.length + 1) = rest := by
      rw [← List.drop_drop, List.drop_left]
      rfl
    rw [simulcastRest, if_neg (by simp), substr_ok (by simp), hdrop, Checked.ok_bind, trim_eq,
      hrest.strip_eq]

/-- A turn for `send`. -/
theorem simulcastTurn_send {rest : Text} {p : List (List SdpSimulcastStream) × Option Text}
    (hrest : Trimmed rest) (hne : rest ≠ []) (h : simulcastSide "recv".toList rest = .ok p) :
    simulcastTurn ("send".toList ++ ' ' :: rest, attr) =
      .ok (simulcastNext { attr with sendLayers := p.1 } p.2) := by
  obtain ⟨htoken, hr⟩ := @simulcast_token "send".toList rest (by decide) hrest
  rw [simulcastTurn, if_neg (by simp)]
  simp only [htoken, hr, Checked.ok_bind, true_and, if_pos hne, h]
  rfl

/-- A turn for `recv`. -/
theorem simulcastTurn_recv {rest : Text} {p : List (List SdpSimulcastStream) × Option Text}
    (hrest : Trimmed rest) (hne : rest ≠ []) (h : simulcastSide "send".toList rest = .ok p) :
    simulcastTurn ("recv".toList ++ ' ' :: rest, attr) =
      .ok (simulcastNext { attr with recvLayers := p.1 } p.2) := by
  obtain ⟨htoken, hr⟩ := @simulcast_token "recv".toList rest (by decide) hrest
  rw [simulcastTurn, if_neg (by simp)]
  simp only [htoken, hr, Checked.ok_bind, true_and, h]
  rw [if_neg fun h => absurd h.1 (by decide), if_pos hne]
  rfl

namespace SdpSimulcast

/-- The text of layers to be sent only. -/
theorem text_send (h : attr.sendLayers ≠ []) (hr : attr.recvLayers = []) :
    attr.text = "send".toList ++ ' ' :: simulcastLayersText attr.sendLayers := by
  simp [text, h, hr]

/-- The text of layers to be received only; it starts with a blank. -/
theorem text_recv (h : attr.recvLayers ≠ []) (hs : attr.sendLayers = []) :
    attr.text = ' ' :: ("recv".toList ++ ' ' :: simulcastLayersText attr.recvLayers) := by
  simp [text, h, hs]

/-- What is behind `send`, with both directions. -/
def bothText (attr : SdpSimulcast) : Text :=
  simulcastLayersText attr.sendLayers ++ ' ' :: "recv".toList ++
    ' ' :: simulcastLayersText attr.recvLayers

/-- The text of both directions, the keyword of the first in front. -/
theorem text_both (hs : attr.sendLayers ≠ []) (hr : attr.recvLayers ≠ []) :
    attr.text = "send".toList ++ ' ' :: attr.bothText := by
  simp [text, bothText, hs, hr]

namespace WellFormed

variable (h : attr.WellFormed)
include h

/-- Nothing is trimmed from the layers to be sent and their keyword. -/
theorem trimmed_send (hs : attr.sendLayers ≠ []) :
    Trimmed ("send".toList ++ ' ' :: simulcastLayersText attr.sendLayers) :=
  ⟨.append_cons (by decide) (by decide) h.send.trimmed_text.toValue (h.send.text_ne hs), by
    simp [isSpace]⟩

/-- Nothing is trimmed from the layers to be received and their keyword. -/
theorem trimmed_recv (hr : attr.recvLayers ≠ []) :
    Trimmed ("recv".toList ++ ' ' :: simulcastLayersText attr.recvLayers) :=
  ⟨.append_cons (by decide) (by decide) h.recv.trimmed_text.toValue (h.recv.text_ne hr), by
    simp [isSpace]⟩

/-- Nothing is trimmed from what is behind the first keyword. -/
theorem trimmed_both (hs : attr.sendLayers ≠ []) (hr : attr.recvLayers ≠ []) :
    Trimmed attr.bothText := by
  have hsend := h.send.trimmed_text
  refine ⟨.append_cons ?_ (by decide) h.recv.trimmed_text.toValue (h.recv.text_ne hr), ?_⟩
  · simp [hsend.newline]
  · rw [bothText, List.append_assoc]
    exact hsend.starts.append (h.send.text_ne hs)

/-- What is written is a value. -/
theorem value_text (hne : attr.sendLayers ≠ [] ∨ attr.recvLayers ≠ []) : Value attr.text := by
  by_cases hs : attr.sendLayers = []
  · have hr : attr.recvLayers ≠ [] := hne.resolve_left fun h => h hs
    rw [text_recv hr hs]
    have := (h.trimmed_recv hr).toValue
    exact ⟨(endsClean_cons (by simp)).2 this.ends, by simp [h.recv.trimmed_text.newline]⟩
  · by_cases hr : attr.recvLayers = []
    · rw [text_send hs hr]
      exact (h.trimmed_send hs).toValue
    · rw [text_both hs hr]
      exact .append_cons (by decide) (by decide) (h.trimmed_both hs hr).toValue (by simp [bothText])

/-- **Simulcast is read back.** -/
theorem parse_text (hne : attr.sendLayers ≠ [] ∨ attr.recvLayers ≠ []) :
    parseSimulcast attr.text = .ok attr := by
  have hlast : ∀ a : SdpSimulcast, a.sendLayers = attr.sendLayers → a.recvLayers = [] →
      attr.recvLayers ≠ [] →
      simulcastTurn ("recv".toList ++ ' ' :: simulcastLayersText attr.recvLayers, a) =
        .ok (.done attr) := by
    intro a ha har hr
    rw [simulcastTurn_recv h.recv.trimmed_text (h.recv.text_ne hr) h.recv.simulcastSide_text]
    simp only [simulcastNext, ha]
  rw [parseSimulcast, trim_eq, Checked.ok_bind]
  by_cases hs : attr.sendLayers = []
  · have hr : attr.recvLayers ≠ [] := hne.resolve_left fun h => h hs
    have hstrip : strip attr.text = "recv".toList ++ ' ' :: simulcastLayersText attr.recvLayers := by
      rw [text_recv hr hs]
      exact (h.trimmed_recv hr).strip_eq
    rw [hstrip]
    exact Checked.loop_done _ (hlast {} hs.symm rfl hr)
  · by_cases hr : attr.recvLayers = []
    · rw [text_send hs hr, (h.trimmed_send hs).strip_eq]
      refine Checked.loop_done _ ?_
      rw [simulcastTurn_send h.send.trimmed_text (h.send.text_ne hs) h.send.simulcastSide_text]
      simp only [simulcastNext, ← hr]
    · have hside : simulcastSide "recv".toList attr.bothText = .ok (attr.sendLayers,
          some ("recv".toList ++ ' ' :: simulcastLayersText attr.recvLayers)) :=
        h.send.simulcastSide_append (by decide)
      have hfirst : simulcastTurn ("send".toList ++ ' ' :: attr.bothText, {}) = _ :=
        simulcastTurn_send (h.trimmed_both hs hr) (by simp [bothText]) hside
      have htrim : Trimmed attr.text := by
        refine ⟨h.value_text hne, ?_⟩
        rw [text_both hs hr]
        simp [isSpace]
      rw [htrim.strip_eq, text_both hs hr]
      exact (Checked.loop_next _ hfirst).trans (Checked.loop_done _ (hlast _ rfl rfl hr))

end WellFormed

end SdpSimulcast

end ReadBack

/-! ### Restriction identifiers -/

namespace SdpRid

/-- A parameter that is written as `key=value`. -/
structure Param (e : Text × Text) : Prop where
  key : Trimmed e.1
  key_ne : e.1 ≠ []
  sign : '=' ∉ e.1
  pt : e.1 ≠ "pt".toList
  keySemicolon : ';' ∉ e.1
  value : Trimmed e.2
  value_ne : e.2 ≠ []
  valueSemicolon : ';' ∉ e.2

/-- An identifier in front of its parameters. -/
structure WellFormed (attr : SdpRid) : Prop where
  id : Token attr.id
  params : ∀ e ∈ attr.params.entries, Param e

variable {attr : SdpRid}

/-- The numbers of the payload types. -/
def numberTexts (pts : List U8) : List Text := pts.map fun pt => toText pt.toNat

/-- The numbers between commas are found again as the runs of digits. -/
theorem pieces_numberTexts (pts : List U8) :
    pieces (fun c => !c.isDigit) ([','].intercalate (numberTexts pts)) = numberTexts pts := by
  refine pieces_intercalate (by decide) fun w hw => ?_
  obtain ⟨pt, -, rfl⟩ := List.mem_map.1 hw
  exact ⟨toText_ne_nil _, fun c hc => by simp [isDigit_toText hc]⟩

/-- Nothing is trimmed from the numbers. -/
theorem trimmed_numbers (pts : List U8) : Trimmed ([','].intercalate (numberTexts pts)) := by
  refine trimmed_intercalate (by decide) fun w hw => ?_
  obtain ⟨pt, -, rfl⟩ := List.mem_map.1 hw
  exact ⟨toText_ne_nil _, (token_toText _).trimmed⟩

/-- The payload types are read back from their numbers. -/
theorem filterMap_numberTexts (pts : List U8) :
    (numberTexts pts).filterMap (parseUint 8) = pts := by
  rw [numberTexts, List.filterMap_map]
  exact (List.filterMap_congr fun pt _ => parseUint_toText pt).trans List.filterMap_some

/-- Where there are payload types, there is text. -/
theorem numbers_ne {pts : List U8} (h : pts ≠ []) : [','].intercalate (numberTexts pts) ≠ [] := by
  obtain ⟨pt, pts, rfl⟩ := List.exists_cons_of_ne_nil h
  simp [numberTexts, intercalate_cons_eq, toText_ne_nil]

/-- A parameter is read. -/
theorem ridParam_keyValue {st : SdpRid × Bool} {key val : Text} (hk : Trimmed key) (hkne : key ≠ [])
    (hs : '=' ∉ key) (hv : Trimmed val) (hvne : val ≠ []) :
    ridParam st (key ++ '=' :: val) = .ok
      (if key = "pt".toList then
        ({ st.1 with payloadTypes := st.1.payloadTypes ++
            (pieces (fun c => !c.isDigit) val).filterMap (parseUint 8) }, true)
      else ({ st.1 with params := st.1.params.emplace key val }, false)) := by
  have htoken : Trimmed (key ++ '=' :: val) :=
    ⟨.append_cons hk.newline (by decide) hv.toValue hvne, hk.starts.append hkne⟩
  rw [ridParam, trim_eq, htoken.strip_eq, Checked.ok_bind, cutOff_append hs]
  obtain ⟨c, key, rfl⟩ := List.exists_cons_of_ne_nil hkne
  obtain ⟨d, val, rfl⟩ := List.exists_cons_of_ne_nil hvne
  simp only [trim_eq, hk.strip_eq, hv.strip_eq, Checked.ok_bind]
  split <;> rfl

/-- What the parts of an identifier are. -/
theorem WellFormed.parts_piece (h : attr.WellFormed) :
    ∀ t ∈ attr.parts, t ≠ [] ∧ Trimmed t ∧ ';' ∉ t := by
  have hnum := trimmed_numbers attr.payloadTypes
  have hsemi : ';' ∉ [','].intercalate (numberTexts attr.payloadTypes) := by
    intro hm
    obtain ⟨w, hw, hin⟩ := infix_intercalate (n := [';']) (c := ',')
      ((List.singleton_infix_iff _ _).2 hm) (by decide) (by simp)
    obtain ⟨pt, -, rfl⟩ := List.mem_map.1 hw
    exact not_mem_toText (by decide) _ ((List.singleton_infix_iff _ _).1 hin)
  intro t ht
  rcases List.mem_append.1 ht with ht | ht
  · split at ht
    · rename_i hne
      obtain rfl := List.mem_singleton.1 ht
      refine ⟨by simp, ⟨.append (by decide) hnum.toValue (numbers_ne hne), by simp [isSpace]⟩, ?_⟩
      simpa [numberTexts] using hsemi
    · cases ht
  · obtain ⟨e, he, rfl⟩ := List.mem_map.1 ht
    have hp := h.params e he
    exact ⟨by simp, ⟨.append_cons hp.key.newline (by decide) hp.value.toValue hp.value_ne,
      hp.key.starts.append hp.key_ne⟩, by simp [hp.keySemicolon, hp.valueSemicolon]⟩

/-- Nothing is trimmed from the parts and the semicolons between them. -/
theorem WellFormed.trimmed_parts (h : attr.WellFormed) :
    Trimmed ([';'].intercalate attr.parts) :=
  trimmed_intercalate (by decide) fun t ht => ⟨(h.parts_piece t ht).1, (h.parts_piece t ht).2.1⟩

/-- The text of an identifier can stand on a line. -/
theorem WellFormed.value_text (h : attr.WellFormed) : Value attr.text := by
  have hdir : Token attr.direction.toString := by cases attr.direction <;> decide
  rw [text, List.append_assoc]
  refine .append_cons h.id.trimmed.newline (by decide) ?_ (by simp [hdir.1])
  split
  · rename_i hne
    have hne : [';'].intercalate attr.parts ≠ [] := by
      obtain ⟨t, ts, ht⟩ := List.exists_cons_of_ne_nil hne
      have := (h.parts_piece t (by simp [ht])).1
      simp [ht, intercalate_cons_eq, this]
    exact .append_cons hdir.trimmed.newline (by decide) h.trimmed_parts.toValue hne
  · simpa using hdir.trimmed.toValue

/-- The head of an identifier is read back, with the text of its parameters. -/
theorem WellFormed.matchRidHead_text (h : attr.WellFormed) :
    matchRidHead attr.text = some (attr.id, attr.direction, [';'].intercalate attr.parts) := by
  have hdrop : ([';'].intercalate attr.parts).dropWhile isSpace = [';'].intercalate attr.parts := by
    have := h.trimmed_parts.starts
    cases hp : [';'].intercalate attr.parts with
    | nil => rfl
    | cons c s =>
      rw [hp] at this
      rw [List.dropWhile_cons_of_neg (by simpa using this)]
  have hblank {s : Text} : ∀ c ∈ (' ' :: s).head?, isSpace c = true := by simp [isSpace]
  have hstart {s : Text} : StartsClean (attr.direction.toString ++ s) := by
    cases attr.direction <;> simp [SdpRidDirection.toString, isSpace]
  rw [text, List.append_assoc, List.cons_append, matchRidHead, takeToken_append h.id hblank]
  simp only [Option.bind_eq_bind, Option.bind_some, takeSpaces_cons hstart]
  by_cases hp : attr.parts = []
  · cases attr.direction <;> simp [SdpRidDirection.toString, hp]
  · cases attr.direction <;> simp [SdpRidDirection.toString, hp, hdrop, isSpace]

/-- **A restriction identifier is read back.** -/
theorem WellFormed.parse_text (h : attr.WellFormed) : parseRid attr.text = .ok (some attr) := by
  have htokens : (([';'].intercalate attr.parts).splitOn ';').filter (· ≠ []) = attr.parts :=
    pieces_intercalate (p := (· == ';')) (by simp) fun t ht => ⟨(h.parts_piece t ht).1, fun c hc =>
      beq_eq_false_iff_ne.2 fun h0 => (h.parts_piece t ht).2.2 (h0 ▸ hc)⟩
  -- The parameters are put into the map in the order of its keys.
  have hparams : ∀ (l : List (Text × Text)) (st : SdpRid × Bool), (∀ e ∈ l, Param e) →
      ∃ b, (l.map fun e => e.1 ++ '=' :: e.2).foldlM ridParam st = .ok
        ({ st.1 with params := l.foldl (fun m e => m.emplace e.1 e.2) st.1.params }, b) := by
    intro l
    induction l with
    | nil => exact fun st _ => ⟨st.2, rfl⟩
    | cons e l ih =>
      intro st hl
      obtain ⟨he, hl⟩ := List.forall_mem_cons.1 hl
      obtain ⟨b, hb⟩ := ih ({ st.1 with params := st.1.params.emplace e.1 e.2 }, false) hl
      refine ⟨b, ?_⟩
      rw [List.map_cons, List.foldlM_cons,
        ridParam_keyValue he.key he.key_ne he.sign he.value he.value_ne, if_neg he.pt]
      exact hb
  have hmap : attr.params.entries.foldl (fun m e => m.emplace e.1 e.2) OrdMap.empty = attr.params :=
    OrdMap.ext (OrdMap.entries_foldl_emplace (by simpa using attr.params.sorted))
  have hfold : ∃ b, attr.parts.foldlM ridParam ({ id := attr.id, direction := attr.direction }, false) =
      .ok (attr, b) := by
    by_cases hpt : attr.payloadTypes = []
    · obtain ⟨b, hb⟩ := hparams attr.params.entries
        ({ id := attr.id, direction := attr.direction }, false) h.params
      refine ⟨b, ?_⟩
      rw [parts, if_neg (by simpa using hpt), List.nil_append, hb, hmap]
      rw [← hpt]
    · obtain ⟨b, hb⟩ := hparams attr.params.entries
        ({ id := attr.id, direction := attr.direction, payloadTypes := attr.payloadTypes }, true)
        h.params
      refine ⟨b, ?_⟩
      have hfirst : ridParam ({ id := attr.id, direction := attr.direction }, false)
          ("pt".toList ++ '=' :: [','].intercalate (numberTexts attr.payloadTypes)) = _ :=
        ridParam_keyValue ⟨⟨by decide, by decide⟩, by decide⟩ (by simp) (by decide)
          (trimmed_numbers _) (numbers_ne hpt)
      rw [if_pos rfl, pieces_numberTexts, filterMap_numberTexts] at hfirst
      rw [parts, if_pos hpt, List.singleton_append, List.foldlM_cons]
      refine Checked.bind_eq_ok.2 ⟨_, hfirst, ?_⟩
      refine hb.trans ?_
      simp only [hmap]
  obtain ⟨b, hb⟩ := hfold
  rw [parseRid, h.matchRidHead_text]
  simp only [htokens, hb, Checked.ok_bind]
  rfl

end SdpRid

/-- What `a=rid` parameters are read into. -/
theorem ridParam_yields {st : SdpRid × Bool} {token : Text} (hst : st.1.WellFormed)
    (hnl : '\n' ∉ token) (hsemi : ';' ∉ token) :
    (ridParam st token).Yields fun r => r.1.WellFormed := by
  have htoken : Trimmed (strip token) :=
    ⟨⟨endsClean_strip token, fun hm => hnl ((strip_within token).subset hm)⟩, startsClean_strip token⟩
  have hsemi : ';' ∉ strip token := fun hm => hsemi ((strip_within token).subset hm)
  rw [ridParam, trim_eq, Checked.ok_bind]
  split
  · rename_i c key d val hcut
    obtain ⟨hsign, hknl, hval, -⟩ := htoken.toValue.cutOff hcut
    have heq := (cutOff_iff.1 hcut).1
    have hstart : StartsClean (c :: key) := htoken.starts.of_front ⟨_, heq.symm⟩
    have hkey : ';' ∉ c :: key := fun hm => hsemi (heq ▸ List.mem_append_left _ hm)
    have hvalue : ';' ∉ d :: val := fun hm =>
      hsemi (heq ▸ List.mem_append_right _ (List.mem_cons_of_mem _ hm))
    have hkne : strip (c :: key) ≠ [] := by
      intro h0
      have := (List.rdropWhile_eq_nil_iff.1 h0) c (by
        rw [List.dropWhile_cons_of_neg (by simpa using hstart)]
        exact List.mem_cons_self ..)
      rw [startsClean_cons.1 hstart] at this
      cases this
    simp only [trim_eq, Checked.ok_bind]
    split
    · exact Checked.yields_pure.2 ⟨hst.id, hst.params⟩
    · rename_i hpt
      refine Checked.yields_pure.2 ⟨hst.id, fun e he => ?_⟩
      rcases OrdMap.mem_insertEntry he with rfl | he
      · exact
          { key := ⟨⟨endsClean_strip _, fun hm => hknl ((strip_within _).subset hm)⟩,
              startsClean_strip _⟩
            key_ne := hkne
            sign := fun hm => hsign ((strip_within _).subset hm)
            pt := hpt
            keySemicolon := fun hm => hkey ((strip_within _).subset hm)
            value := hval.trimmed
            value_ne := strip_ne_nil hval.ends (by simp)
            valueSemicolon := fun hm => hvalue ((strip_within _).subset hm) }
      · exact hst.params e he
  · split
    · split
      · exact Checked.yields_pure.2 ⟨hst.id, hst.params⟩
      · exact Checked.yields_pure.2 hst
    · exact Checked.yields_pure.2 hst

/-- **What `parse_rid` reads.** -/
theorem parseRid_yields (hv : Value v) :
    (parseRid v).Yields fun r => ∀ attr ∈ r, attr.WellFormed := by
  unfold parseRid
  split
  · simp
  rename_i id d params hm
  have hhead : Token id ∧ params <:+ v := by
    simp only [matchRidHead, Option.bind_eq_bind, Option.bind_eq_some_iff, Prod.exists] at hm
    obtain ⟨id', s, hid, s', hs, hm⟩ := hm
    have hsuf : s'.drop 4 <:+ v := (List.drop_suffix _ _).trans
      ((takeSpaces_eq_some hs).trans (takeToken_eq_some hid).2)
    have htail : ∀ (d' : SdpRidDirection) (t : Text), t <:+ v →
        (match t with
          | [] => pure (id', d', [])
          | c :: _ => if isSpace c then pure (id', d', t.dropWhile isSpace) else none) =
          some (id, d, params) → Token id ∧ params <:+ v := by
      intro d' t ht h
      split at h
      · obtain ⟨rfl, hp⟩ := Prod.mk.inj (Option.some.inj h)
        obtain ⟨-, rfl⟩ := Prod.mk.inj hp
        exact ⟨(takeToken_eq_some hid).1, List.nil_suffix⟩
      split at h
      · obtain ⟨rfl, hp⟩ := Prod.mk.inj (Option.some.inj h)
        obtain ⟨-, rfl⟩ := Prod.mk.inj hp
        exact ⟨(takeToken_eq_some hid).1, (List.dropWhile_suffix _).trans ht⟩
      · cases h
    split at hm
    · exact htail _ _ hsuf hm
    split at hm
    · exact htail _ _ hsuf hm
    · cases hm
  refine (Checked.Yields.foldlM (R := fun st : SdpRid × Bool => st.1.WellFormed)
    (fun st token hst ht => ?_) ⟨hhead.1, by simp⟩).bind fun st hst =>
      Checked.yields_pure.2 fun attr hattr => ?_
  · obtain ⟨-, hw, hin⟩ := mem_pieces (p := (· == ';')) token ht
    exact ridParam_yields hst (fun hm => (hv.of_suffix hhead.2).newline (hin.subset hm))
      fun hm => by simpa using hw _ hm
  · obtain rfl := Option.some.inj hattr
    exact hst

/-! ### Plain identifiers -/

/-- A stream whose identifier is one word, without a separator or a mark of its own. -/
structure SdpSimulcastStream.Plain (stream : SdpSimulcastStream) : Prop where
  rid : Token stream.rid
  comma : ',' ∉ stream.rid
  semicolon : ';' ∉ stream.rid
  mark : stream.rid.head? ≠ some '~'

/-- Layers of such streams, each with one, for at least one direction. -/
structure SdpSimulcast.Plain (attr : SdpSimulcast) : Prop where
  layer : ∀ layer ∈ attr.sendLayers ++ attr.recvLayers, layer ≠ []
  stream : ∀ layer ∈ attr.sendLayers ++ attr.recvLayers, ∀ stream ∈ layer, stream.Plain
  directed : attr.sendLayers ≠ [] ∨ attr.recvLayers ≠ []

/-- A restriction identifier of one word, whose parameters hold no separator, and no blank at an
end. -/
structure SdpRid.Plain (attr : SdpRid) : Prop where
  id : Token attr.id
  key : ∀ e ∈ attr.params.entries, e.1 ≠ [] ∧ e.1 ≠ "pt".toList ∧ '=' ∉ e.1 ∧ ';' ∉ e.1
  value : ∀ e ∈ attr.params.entries, e.2 ≠ [] ∧ ';' ∉ e.2
  newline : ∀ e ∈ attr.params.entries, '\n' ∉ e.1 ∧ '\n' ∉ e.2
  ends : ∀ e ∈ attr.params.entries,
    (StartsClean e.1 ∧ EndsClean e.1) ∧ StartsClean e.2 ∧ EndsClean e.2

section Plain

variable {stream : SdpSimulcastStream} {layers : List (List SdpSimulcastStream)}

/-- The text of a plain stream is one word. -/
theorem SdpSimulcastStream.Plain.token_text (h : stream.Plain) : Token stream.text := by
  rw [text]
  split
  · exact ⟨by simp, List.forall_mem_cons.2 ⟨by decide, h.rid.2⟩⟩
  · exact h.rid

/-- A plain stream is well formed. -/
theorem SdpSimulcastStream.Plain.wellFormed (h : stream.Plain) : stream.WellFormed where
  trimmed := h.token_text.trimmed
  text_ne := h.token_text.1
  comma := by rw [text]; split <;> simp [h.comma]
  semicolon := by rw [text]; split <;> simp [h.semicolon]
  mark _ := h.mark

/-- Plain layers have no keyword in their text: there is no blank in it. -/
theorem layersWellFormed_of_plain (other : Text) (hne : ∀ layer ∈ layers, layer ≠ [])
    (h : ∀ layer ∈ layers, ∀ stream ∈ layer, stream.Plain) : LayersWellFormed other layers where
  layer layer hl := ⟨hne layer hl, fun stream hs => (h layer hl stream hs).wellFormed⟩
  keyword hin := by
    have hblank : [' '] <:+: simulcastLayersText layers :=
      (List.prefix_append [' '] other).isInfix.trans hin
    rw [simulcastLayersText_eq hne] at hblank
    obtain ⟨t, ht, hblank⟩ := infix_intercalate hblank (by decide) (by simp)
    obtain ⟨layer, hl, rfl⟩ := List.mem_map.1 ht
    obtain ⟨w, hw, hblank⟩ := infix_intercalate hblank (by decide) (by simp)
    obtain ⟨stream, hs, rfl⟩ := List.mem_map.1 hw
    have hspace := (h layer hl stream hs).token_text.2 ' ' ((List.singleton_infix_iff _ _).1 hblank)
    exact absurd hspace (by decide)

/-- Plain layers are well formed in both directions. -/
theorem SdpSimulcast.Plain.wellFormed {attr : SdpSimulcast} (h : attr.Plain) : attr.WellFormed where
  send := layersWellFormed_of_plain _ (fun layer hl => h.layer layer (List.mem_append_left _ hl))
    fun layer hl => h.stream layer (List.mem_append_left _ hl)
  recv := layersWellFormed_of_plain _ (fun layer hl => h.layer layer (List.mem_append_right _ hl))
    fun layer hl => h.stream layer (List.mem_append_right _ hl)

/-- A plain identifier is well formed. -/
theorem SdpRid.Plain.wellFormed {attr : SdpRid} (h : attr.Plain) : attr.WellFormed where
  id := h.id
  params e he :=
    { key := ⟨⟨(h.ends e he).1.2, (h.newline e he).1⟩, (h.ends e he).1.1⟩
      key_ne := (h.key e he).1
      sign := (h.key e he).2.2.1
      pt := (h.key e he).2.1
      keySemicolon := (h.key e he).2.2.2
      value := ⟨⟨(h.ends e he).2.2, (h.newline e he).2⟩, (h.ends e he).2.1⟩
      value_ne := (h.value e he).1
      valueSemicolon := (h.value e he).2 }

/-- **Simulcast and restriction identifiers come back** from what is printed of them, and
`parse_simulcast` ends on every text. -/
theorem simulcast_rid_roundTrip :
    (∀ attr : SdpSimulcast, attr.Plain → parseSimulcast attr.text = .ok attr) ∧
      (∀ attr : SdpRid, attr.Plain → parseRid attr.text = .ok (some attr)) ∧
      ∀ value, (parseSimulcast value).Safe :=
  ⟨fun _ h => h.wellFormed.parse_text h.directed, fun _ h => h.wellFormed.parse_text,
    parseSimulcast_safe⟩

/-- Two directions, one with a paused alternative. -/
def pausedSimulcast : SdpSimulcast where
  sendLayers := [[{ rid := "hi".toList }, { rid := "mid".toList, paused := true }],
    [{ rid := "lo".toList }]]
  recvLayers := [[{ rid := "1".toList }]]

/-- Two payload types and a parameter. -/
def widthRid : SdpRid where
  id := "hi".toList
  payloadTypes := [96, 97]
  params := OrdMap.empty.emplace "max-width".toList "1280".toList

/-- A paused alternative in one direction, a layer in the other, and an identifier with a parameter.
-/
theorem simulcast_rid_roundTrip_paused :
    parseSimulcast "send hi,~mid;lo recv 1".toList = .ok pausedSimulcast ∧
      parseRid "hi send pt=96,97;max-width=1280".toList = .ok (some widthRid) := by
  have hplain : pausedSimulcast.Plain := by
    have hstreams : ∀ stream ∈ (pausedSimulcast.sendLayers ++ pausedSimulcast.recvLayers).flatten,
        Token stream.rid ∧ ',' ∉ stream.rid ∧ ';' ∉ stream.rid ∧ stream.rid.head? ≠ some '~' := by
      decide
    refine ⟨by decide, fun layer hl stream hs => ?_, by decide⟩
    obtain ⟨hrid, hcomma, hsemi, hmark⟩ := hstreams stream (List.mem_flatten.2 ⟨layer, hl, hs⟩)
    exact ⟨hrid, hcomma, hsemi, hmark⟩
  have hentries : widthRid.params.entries = [("max-width".toList, "1280".toList)] := rfl
  have hrid : widthRid.Plain := by
    constructor
    case id => decide
    all_goals
      rw [hentries]
      decide
  exact ⟨simulcast_rid_roundTrip.1 pausedSimulcast hplain,
    simulcast_rid_roundTrip.2.1 widthRid hrid⟩

end Plain

end AsioRtc
