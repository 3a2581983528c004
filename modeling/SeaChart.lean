import SeaChart.Main
import SeaChart.Proofs.ClassOrder
import SeaChart.Proofs.NumberOrder
import SeaChart.Proofs.SequentialMeaning
import SeaChart.Proofs.Alternatives
import SeaChart.Proofs.DepthShading
import SeaChart.Proofs.KnownFields
import SeaChart.Proofs.DictionaryOrder
import SeaChart.Proofs.SymbolReferences
import SeaChart.Proofs.SolidConditions
import SeaChart.Proofs.ExpressionReading
import SeaChart.Proofs.FileTree
import SeaChart.Proofs.ShapefileNames
import SeaChart.Proofs.NormalPaths
import SeaChart.Proofs.Saving
import SeaChart.Proofs.Effects
import SeaChart.Proofs.Listings
import SeaChart.Proofs.ChartFiles
import SeaChart.Proofs.LexicalPlaces
import SeaChart.Proofs.RuleFiles
import SeaChart.Proofs.MapEntries
import SeaChart.Proofs.MapReferences
import SeaChart.Proofs.Rerun
import SeaChart.Proofs.EarlyFailures
import SeaChart.Proofs.Confinement
import SeaChart.Proofs.SelectedRules
import SeaChart.Proofs.StanzaShape
import SeaChart.Proofs.PaletteChange
import SeaChart.Proofs.BlockReading
import SeaChart.Proofs.LevelReading
import SeaChart.Proofs.InstructionGrammar
import SeaChart.Proofs.OrderedChoices
import SeaChart.Proofs.PlottedSegments
import SeaChart.Proofs.StableOrder
import SeaChart.Proofs.FieldFilter
import SeaChart.Proofs.DrawingOrder
import SeaChart.Proofs.ShallowHazards
import SeaChart.Proofs.CanonicalPaths
import SeaChart.Proofs.TemplateScan
import SeaChart.Proofs.EncodedStrokes
import SeaChart.Proofs.ColumnNames
import SeaChart.Proofs.SplicedText
import SeaChart.Proofs.QuotedText
import SeaChart.Proofs.RuleProducts
import SeaChart.Proofs.ListPatterns
