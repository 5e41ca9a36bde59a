import Reticulum.Configuration.Faithful
import Reticulum.Discovery.Handler
import Reticulum.Lib.Results

/-!
# The configuration entry of a discovered interface

The entry that `interface_info` writes for an announced interface, read back as a configuration.
It says what was announced when no announced text holds a line break, a number sign, or quotation
marks and white space at its ends; each of these changes what is read.
-/

namespace Reticulum.Discovery

open Reticulum.Configuration

/-! ## The lines of an entry -/

/-- A setting, or a comment. -/
inductive EntryLine
  | item (key value : String)
  | comment (text : String)

/-- The text of a line. -/
def EntryLine.render : EntryLine → String
  | item key value => "  " ++ key ++ " = " ++ value
  | comment text => "  # " ++ text

/-- The line of a setting that is not empty. -/
def optionalLine (key : String) : Option String → List EntryLine
  | some value => if value.isEmpty then [] else [.item key value]
  | none => []

/-- The `type` that is written for an interface. -/
def entryType (set : Setting) (interfaceType : String) : String :=
  if interfaceType = "BackboneInterface" ∨ interfaceType = "TCPServerInterface" then
    if set.backboneSupport then "BackboneInterface" else "TCPClientInterface"
  else interfaceType

/-- The key that the address is written under. -/
def addressKey (set : Setting) (interfaceType : String) : String :=
  if interfaceType = "I2PInterface" then "peers"
  else if set.backboneSupport then "remote"
  else "target_host"

/-- What an entry says of each type of interface, before the network name and passphrase. -/
def typedLines (set : Setting) (info : InterfaceInfo) : List EntryLine :=
  let head := [EntryLine.item "type" (entryType set info.interfaceType), .item "enabled" "yes"]
  let address := EntryLine.item (addressKey set info.interfaceType) (info.reachableOn.getD "")
  let identity := EntryLine.item "transport_identity" info.transportId
  match info.interfaceType with
  | "BackboneInterface" | "TCPServerInterface" =>
      head ++ [address, .item "target_port" (toString (info.port.getD 0)), identity]
  | "I2PInterface" => head ++ [address, identity]
  | "RNodeInterface" =>
      head ++ [.item "port" "", .item "frequency" (shown (info.frequency.map toString)),
        .item "bandwidth" (shown (info.bandwidth.map toString)),
        .item "spreadingfactor" (shown (info.sf.map toString)),
        .item "codingrate" (shown (info.cr.map toString)), .item "txpower" ""]
  | "WeaveInterface" => head ++ [.item "port" ""]
  | "KISSInterface" =>
      head ++ [.item "port" "", .comment ("Frequency: " ++ shown (info.frequency.map toString)),
        .comment ("Bandwidth: " ++ shown (info.bandwidth.map toString)),
        .comment ("Modulation: " ++ shown info.modulation), identity]
  | _ => []

/-- The lines below the name. -/
def entryLines (set : Setting) (info : InterfaceInfo) : List EntryLine :=
  typedLines set info ++ (optionalLine "network_name" info.ifacNetname ++
    optionalLine "passphrase" info.ifacNetkey)

/-- Lines put together. -/
def joined (lines : List String) : String := String.intercalate "\n" lines

/-- The text of an entry. -/
def entryText (set : Setting) (info : InterfaceInfo) : String :=
  joined (("[[" ++ info.name ++ "]]") :: (entryLines set info).map EntryLine.render)

theorem joined_append {front : List String} (hne : front ≠ []) (lines : List String) :
    joined (front ++ lines) = joined front ++ String.join (lines.map fun line => "\n" ++ line) := by
  induction lines generalizing front with
  | nil => rw [List.append_nil, List.map_nil, String.join_nil, String.append_empty]
  | cons line lines ih =>
      have hsplit : front ++ line :: lines = (front ++ [line]) ++ lines := by simp
      have hone : joined (front ++ [line]) = joined front ++ "\n" ++ line := by
        unfold joined
        rw [String.intercalate_append_of_ne_nil hne (List.cons_ne_nil _ _),
          String.intercalate_singleton]
      rw [hsplit, ih (by simp), hone, List.map_cons, String.join_cons]
      simp only [String.append_assoc]

theorem join_optionalLine (key : String) (value : Option String) :
    String.join (((optionalLine key value).map EntryLine.render).map fun line => "\n" ++ line) =
      configLine key value := by
  cases value with
  | none => rfl
  | some value =>
      unfold optionalLine configLine
      dsimp only
      split
      · rfl
      · have hsplit : "\n  " = "\n" ++ "  " := by decide
        simp only [List.map_cons, List.map_nil, EntryLine.render, String.join_cons, String.join_nil,
          String.append_empty, toString, hsplit, String.append_assoc]

theorem entryText_eq (set : Setting) (info : InterfaceInfo) : entryText set info =
    joined (("[[" ++ info.name ++ "]]") :: (typedLines set info).map EntryLine.render) ++
      (configLine "network_name" info.ifacNetname ++ configLine "passphrase" info.ifacNetkey) := by
  unfold entryText entryLines
  rw [List.map_append, ← List.cons_append, joined_append (List.cons_ne_nil _ _), List.map_append,
    List.map_append, String.join_append, join_optionalLine, join_optionalLine]

/-- What the types add, and that they leave what was announced. -/
structure Typed (set : Setting) (before info : InterfaceInfo) : Prop where
  interfaceType : info.interfaceType = before.interfaceType
  name : info.name = before.name
  transportId : info.transportId = before.transportId
  entry : info.configEntry = before.configEntry ∨
    info.configEntry = some (entryText set info) ∧
      .item "type" (entryType set info.interfaceType) ∈ typedLines set info
  address : before.reachableOn = none → ∀ remote ∈ info.reachableOn,
    .item (addressKey set info.interfaceType) remote ∈ typedLines set info
  port : before.port = none → ∀ port ∈ info.port,
    .item "target_port" (toString port) ∈ typedLines set info

section
variable {set : Setting} {m : Value} {before info : InterfaceInfo}

theorem head_line : "]]\n  type = " = "]]" ++ "\n" ++ "  " ++ "type" ++ " = " := by decide

theorem enabled_line :
    "\n  enabled = yes\n  " =
      "\n" ++ "  " ++ "enabled" ++ " = " ++ "yes" ++ "\n" ++ "  " := by decide

theorem identity_line :
    "\n  transport_identity = " = "\n" ++ "  " ++ "transport_identity" ++ " = " := by decide

theorem type_mem_typedLines (h : info.interfaceType ∈ ["BackboneInterface", "TCPServerInterface",
    "I2PInterface", "RNodeInterface", "WeaveInterface", "KISSInterface"]) :
    .item "type" (entryType set info.interfaceType) ∈ typedLines set info := by
  unfold typedLines
  dsimp only
  split
  all_goals simp_all

theorem address_mem_typedLines {remote : String} (h : info.interfaceType ∈ ["BackboneInterface",
    "TCPServerInterface", "I2PInterface"]) (hremote : remote ∈ info.reachableOn) :
    .item (addressKey set info.interfaceType) remote ∈ typedLines set info := by
  unfold typedLines
  dsimp only
  split
  all_goals simp_all

/-- An entry of an interface that is dialled at its address. -/
theorem typed_dialled {reachableOn : Option String}
    (hdialled : before.interfaceType ∈ ["BackboneInterface", "TCPServerInterface", "I2PInterface"])
    (h : typedInfo set m before reachableOn = .ok info) : Typed set before info := by
  unfold typedInfo at h
  dsimp only at h
  split at h
  case h_1 htype | h_2 htype =>
    split at h
    · cases h
    · next remote =>
      obtain ⟨port, hport, h⟩ := Results.bind_eq_ok.mp h
      obtain rfl := Except.ok.inj h
      refine ⟨rfl, rfl, rfl, Or.inr ⟨congrArg some ?_, type_mem_typedLines (by simp [htype])⟩,
        fun _ _ hmem => address_mem_typedLines hdialled hmem, fun _ number hmem => ?_⟩
      · have hentry : entryType set before.interfaceType =
            if set.backboneSupport then "BackboneInterface" else "TCPClientInterface" :=
          if_pos (by rw [htype]; decide)
        have hkey : addressKey set before.interfaceType =
            if set.backboneSupport then "remote" else "target_host" :=
          if_neg (by rw [htype]; decide)
        have hline : "  target_port = " = "  " ++ "target_port" ++ " = " := by decide
        rw [entryText_eq]
        unfold typedLines
        dsimp only
        rw [hentry, hkey, htype]
        simp only [List.map_cons, List.map_nil, List.cons_append, List.nil_append, joined,
          String.intercalate_cons_cons, String.intercalate_singleton, EntryLine.render, toString,
          Option.getD_some, head_line, enabled_line, hline, identity_line, String.append_assoc]
      · obtain rfl := Option.some.inj hmem
        unfold typedLines
        dsimp only
        rw [htype]
        simp
  case h_3 htype =>
    split at h
    · cases h
    · next remote =>
      obtain rfl := Except.ok.inj h
      refine ⟨rfl, rfl, rfl, Or.inr ⟨congrArg some ?_, type_mem_typedLines (by simp [htype])⟩,
        fun _ _ hmem => address_mem_typedLines hdialled hmem, fun hnone port hmem => ?_⟩
      · have hentry : entryType set before.interfaceType = "I2PInterface" := by
          rw [htype]
          rfl
        have hkey : addressKey set before.interfaceType = "peers" := if_pos htype
        have hline : "]]\n  type = I2PInterface\n  enabled = yes\n" =
            "]]" ++ "\n" ++ "  " ++ "type" ++ " = " ++ "I2PInterface" ++ "\n" ++ "  " ++ "enabled" ++
              " = " ++ "yes" ++ "\n" := by decide
        have hpeers : "  peers = " = "  " ++ "peers" ++ " = " := by decide
        rw [entryText_eq]
        unfold typedLines
        dsimp only
        rw [hentry, hkey, htype]
        simp only [List.map_cons, List.map_nil, List.cons_append, List.nil_append, joined,
          String.intercalate_cons_cons, String.intercalate_singleton, EntryLine.render, toString,
          Option.getD_some, hline, hpeers, identity_line, String.append_assoc]
      · cases hnone.symm.trans hmem
  all_goals simp_all

/-- An entry that names neither address nor port. -/
theorem Typed.of_radio (htype : info.interfaceType = before.interfaceType)
    (hname : info.name = before.name) (hidentity : info.transportId = before.transportId)
    (hreachable : info.reachableOn = before.reachableOn) (hport : info.port = before.port)
    (hradio : before.interfaceType ∈ ["RNodeInterface", "WeaveInterface", "KISSInterface"])
    (hentry : info.configEntry = some (entryText set info)) : Typed set before info := by
  refine ⟨htype, hname, hidentity, Or.inr ⟨hentry, type_mem_typedLines ?_⟩,
    fun hnone remote hmem => ?_, fun hnone port hmem => ?_⟩
  · rw [htype]
    simp_all
  · cases (hreachable.trans hnone).symm.trans hmem
  · cases (hport.trans hnone).symm.trans hmem

theorem typed_radio {reachableOn : Option String}
    (hradio : before.interfaceType ∈ ["RNodeInterface", "WeaveInterface", "KISSInterface"])
    (h : typedInfo set m before reachableOn = .ok info) : Typed set before info := by
  unfold typedInfo at h
  dsimp only at h
  split at h
  case h_4 htype =>
    obtain ⟨frequency, hfrequency, h⟩ := Results.bind_eq_ok.mp h
    obtain ⟨bandwidth, hbandwidth, h⟩ := Results.bind_eq_ok.mp h
    obtain ⟨sf, hsf, h⟩ := Results.bind_eq_ok.mp h
    obtain ⟨cr, hcr, h⟩ := Results.bind_eq_ok.mp h
    obtain rfl := Except.ok.inj h
    refine .of_radio rfl rfl rfl rfl rfl hradio (congrArg some ?_)
    have hentry : entryType set before.interfaceType = "RNodeInterface" := by
      rw [htype]
      rfl
    have hline : "]]\n  type = RNodeInterface\n  enabled = yes\n  port = \n" =
        "]]" ++ "\n" ++ "  " ++ "type" ++ " = " ++ "RNodeInterface" ++ "\n" ++ "  " ++ "enabled" ++
          " = " ++ "yes" ++ "\n" ++ "  " ++ "port" ++ " = " ++ "\n" := by decide
    have hradio : "  frequency = " = "  " ++ "frequency" ++ " = " := by decide
    have hwidth : "\n  bandwidth = " = "\n" ++ "  " ++ "bandwidth" ++ " = " := by decide
    have hspread : "  spreadingfactor = " = "  " ++ "spreadingfactor" ++ " = " := by decide
    have hrate : "\n  codingrate = " = "\n" ++ "  " ++ "codingrate" ++ " = " := by decide
    have hpower : "\n  txpower = " = "\n" ++ "  " ++ "txpower" ++ " = " := by decide
    rw [entryText_eq]
    unfold typedLines
    dsimp only
    rw [hentry, htype]
    simp only [List.map_cons, List.map_nil, List.cons_append, List.nil_append, joined,
      String.intercalate_cons_cons, String.intercalate_singleton, EntryLine.render, toString,
      hline, hradio, hwidth, hspread, hrate, hpower, String.append_assoc, String.empty_append]
  case h_5 htype =>
    obtain ⟨frequency, hfrequency, h⟩ := Results.bind_eq_ok.mp h
    obtain ⟨bandwidth, hbandwidth, h⟩ := Results.bind_eq_ok.mp h
    obtain ⟨channel, hchannel, h⟩ := Results.bind_eq_ok.mp h
    obtain ⟨modulation, hmodulation, h⟩ := Results.bind_eq_ok.mp h
    obtain rfl := Except.ok.inj h
    refine .of_radio rfl rfl rfl rfl rfl hradio (congrArg some ?_)
    have hentry : entryType set before.interfaceType = "WeaveInterface" := by
      rw [htype]
      rfl
    have hline : "]]\n  type = WeaveInterface\n  enabled = yes\n  port = " =
        "]]" ++ "\n" ++ "  " ++ "type" ++ " = " ++ "WeaveInterface" ++ "\n" ++ "  " ++ "enabled" ++
          " = " ++ "yes" ++ "\n" ++ "  " ++ "port" ++ " = " := by decide
    rw [entryText_eq]
    unfold typedLines
    dsimp only
    rw [hentry, htype]
    simp only [List.map_cons, List.map_nil, List.cons_append, List.nil_append, joined,
      String.intercalate_cons_cons, String.intercalate_singleton, EntryLine.render, toString,
      hline, String.append_assoc, String.empty_append]
  case h_6 htype =>
    obtain ⟨frequency, hfrequency, h⟩ := Results.bind_eq_ok.mp h
    obtain ⟨bandwidth, hbandwidth, h⟩ := Results.bind_eq_ok.mp h
    obtain ⟨modulation, hmodulation, h⟩ := Results.bind_eq_ok.mp h
    obtain rfl := Except.ok.inj h
    refine .of_radio rfl rfl rfl rfl rfl hradio (congrArg some ?_)
    have hentry : entryType set before.interfaceType = "KISSInterface" := by
      rw [htype]
      rfl
    have hline : "]]\n  type = KISSInterface\n  enabled = yes\n  port = \n" =
        "]]" ++ "\n" ++ "  " ++ "type" ++ " = " ++ "KISSInterface" ++ "\n" ++ "  " ++ "enabled" ++
          " = " ++ "yes" ++ "\n" ++ "  " ++ "port" ++ " = " ++ "\n" := by decide
    have hradio : "  # Frequency: " = "  # " ++ "Frequency: " := by decide
    have hwidth : "\n  # Bandwidth: " = "\n" ++ "  # " ++ "Bandwidth: " := by decide
    have hmodulated : "  # Modulation: " = "  # " ++ "Modulation: " := by decide
    rw [entryText_eq]
    unfold typedLines
    dsimp only
    rw [hentry, htype]
    simp only [List.map_cons, List.map_nil, List.cons_append, List.nil_append, joined,
      String.intercalate_cons_cons, String.intercalate_singleton, EntryLine.render, toString,
      hline, hradio, hwidth, hmodulated, identity_line, String.append_assoc, String.empty_append]
  all_goals simp_all

theorem typed_typedInfo {reachableOn : Option String}
    (h : typedInfo set m before reachableOn = .ok info) : Typed set before info := by
  by_cases hdialled :
      before.interfaceType ∈ ["BackboneInterface", "TCPServerInterface", "I2PInterface"]
  · exact typed_dialled hdialled h
  by_cases hradio : before.interfaceType ∈ ["RNodeInterface", "WeaveInterface", "KISSInterface"]
  · exact typed_radio hradio h
  -- Of any other type the announce is taken as it is.
  unfold typedInfo at h
  dsimp only at h
  split at h
  case h_7 =>
    obtain rfl := Except.ok.inj h
    refine ⟨rfl, rfl, rfl, Or.inl rfl, fun hnone remote hmem => ?_, fun hnone port hmem => ?_⟩
    · cases hnone.symm.trans hmem
    · cases hnone.symm.trans hmem
  all_goals simp_all

end

end Reticulum.Discovery
