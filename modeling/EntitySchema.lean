import EntitySchema.CommandLine.Run
import EntitySchema.Main
import EntitySchema.Proofs.FilteredQueries
import EntitySchema.Proofs.FirstViolation
import EntitySchema.Proofs.ForeignKeys
import EntitySchema.Proofs.IncludeGraph
import EntitySchema.Proofs.LevelNumbers
import EntitySchema.Proofs.OutputFiles
import EntitySchema.Proofs.RoundTrip
import EntitySchema.Proofs.Spelling
import EntitySchema.Proofs.Splitting
import EntitySchema.Proofs.PrintedDefaults
import EntitySchema.Proofs.TokenPlaces
import EntitySchema.Proofs.EnumNumbering
import EntitySchema.Proofs.WholeFiles
import EntitySchema.Proofs.Containment
import EntitySchema.Proofs.WholeSchema
import EntitySchema.Proofs.RowStatements
import EntitySchema.Proofs.MethodNames
import EntitySchema.Proofs.QueryLabels
import EntitySchema.Proofs.Descriptions
import EntitySchema.Proofs.Verbosity
import EntitySchema.Proofs.Quoting
import EntitySchema.Proofs.Alignment
import EntitySchema.Proofs.EnumConversions
