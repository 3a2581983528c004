import SeaChart.Chart.Shapefile
import SeaChart.Mapfile.Layer
import SeaChart.Mapfile.SymbolSet
import SeaChart.Settings.Basic

namespace SeaChart

open Mapfile
open Mapfile.Stanza (entry quoted write)

namespace Level

def all : List (Nat × Nat) :=
  [(1, 99999999), (2, 3000000), (3, 1200000), (4, 180000), (5, 45000), (6, 22000)]

def drawnBefore (a b : Layer) : Bool :=
  let p := a.priority.level
  let q := b.priority.level
  if p = q then a.geometry.rank ≤ b.geometry.rank else p < q

def layerOf (p : Presentation) (level maxScale : Nat) (f : Shapefile) : Layer :=
  let name := Shapefile.levelName level
  Layer.ofFeature p name f.feature f.geometry name maxScale f.fields

def layers (p : Presentation) (level maxScale : Nat) (files : List Shapefile) : List Layer :=
  ((files.map (layerOf p level maxScale)).filter fun l => !l.isEmpty).mergeSort drawnBefore

def stanzas (p : Presentation) (level maxScale : Nat) (files : List Shapefile) : List Stanza :=
  (layers p level maxScale files).flatMap fun l => l.stanzas p ++ [.blank]

def text (p : Presentation) (level maxScale : Nat) (files : List Shapefile) : String :=
  write p.ink 0 (stanzas p level maxScale files)

def log (p : Presentation) (level maxScale : Nat) (files : List Shapefile) : Log :=
  p.colorLog (Stanza.colorsOfAll (stanzas p level maxScale files))

end Level

namespace MainMap

def background : String := "NODTA"

def includePath (t : Theme) (level : Nat) : String :=
  "includes/" ++ t.name ++ "/" ++ Shapefile.levelName level ++ ".map"

def symbolSetPath (t : Theme) : String :=
  "symbols/symbols-" ++ t.name ++ ".sym"

def debugStanzas : List Stanza :=
  [entry "DEBUG" "5", .line "CONFIG \"MS_ERRORFILE\" \"stderr\""]

def metadata (t : Theme) : Stanza :=
  .block "METADATA"
    [.line ("\"wms_title\" \"SeaChart " ++ t.name ++ "\""),
      .line "\"wms_srs\" \"EPSG:4326 EPSG:3857 EPSG:900913\"",
      .line "\"wms_enable_request\" \"*\"",
      .line "\"wms_feature_info_mime_type\" \"text/html\""]

def stanza (p : Presentation) (s : Settings) (t : Theme) (levels : List Nat) : Stanza :=
  .block "MAP"
    ([quoted "NAME" ("SeaChart_" ++ t.name),
      entry "EXTENT" "-180 -85 180 85",
      entry "UNITS" "DD",
      entry "SIZE" "1024 1024",
      entry "IMAGETYPE" "png",
      entry "IMAGECOLOR" (p.color background).channels,
      quoted "SHAPEPATH" s.places.data.text,
      quoted "SYMBOLSET" (symbolSetPath t),
      quoted "FONTSET" "fonts/fontset.lst"] ++
    (if s.debug then debugStanzas else []) ++
    [.block "PROJECTION" [.line "\"init=epsg:4326\""], .block "WEB" [metadata t]] ++
    levels.map fun level => quoted "INCLUDE" (includePath t level))

def text (p : Presentation) (s : Settings) (t : Theme) (levels : List Nat) : String :=
  write p.ink 0 [stanza p s t levels]

def log (p : Presentation) : Log :=
  p.colorLog [background]

end MainMap

end SeaChart
