import Vtm.Cabac.Decoder
import Vtm.Cabac.Encoder
import Vtm.Cabac.Exact
import Vtm.Common.APS
import Vtm.Common.AffineMerge
import Vtm.Common.Bins
import Vtm.Common.BitStream
import Vtm.Common.BrickMap
import Vtm.Common.ChromaQpMapping
import Vtm.Common.Contexts
import Vtm.Common.CtuFilters
import Vtm.Common.DepQuant
import Vtm.Common.Dequant
import Vtm.Common.HRD
import Vtm.Common.InterSyntax
import Vtm.Common.Lfnst
import Vtm.Common.MergeCandidates
import Vtm.Common.MotionInfo
import Vtm.Common.MvPrecision
import Vtm.Common.NAL
import Vtm.Common.PPS
import Vtm.Common.Palette
import Vtm.Common.PalettePredictor
import Vtm.Common.ParameterSetMap
import Vtm.Common.PicHeader
import Vtm.Common.Quant
import Vtm.Common.Quantisation
import Vtm.Common.RefPicListStruct
import Vtm.Common.Reshape
import Vtm.Common.Rom
import Vtm.Common.ScalingList
import Vtm.Common.Scan
import Vtm.Common.SliceData
import Vtm.Common.TemporalMv
import Vtm.Common.TransformTree
import Vtm.Common.UnitPartitioner
import Vtm.Common.WeightPred
import Vtm.Decoder.APS
import Vtm.Decoder.AnnexBread
import Vtm.Decoder.ApsRepetition
import Vtm.Decoder.BinDecoder
import Vtm.Decoder.Concealment
import Vtm.Decoder.CtuFilters
import Vtm.Decoder.DecApp
import Vtm.Decoder.DecLib
import Vtm.Decoder.DecSlice
import Vtm.Decoder.HRD
import Vtm.Decoder.LostSlices
import Vtm.Decoder.MergeData
import Vtm.Decoder.NALread
import Vtm.Decoder.PPS
import Vtm.Decoder.Palette
import Vtm.Decoder.PicHeader
import Vtm.Decoder.PicOrderCnt
import Vtm.Decoder.PredictionUnit
import Vtm.Decoder.PrefixSei
import Vtm.Decoder.RefPicListStruct
import Vtm.Decoder.ScalingList
import Vtm.Decoder.ScalingListSetup
import Vtm.Decoder.SliceRefPicLists
import Vtm.Decoder.Symbols
import Vtm.Decoder.VLCReader
import Vtm.Decoder.WeightPred
import Vtm.Encoder.APS
import Vtm.Encoder.AnnexBwrite
import Vtm.Encoder.BinEncoder
import Vtm.Encoder.CtuFilters
import Vtm.Encoder.EncSlice
import Vtm.Encoder.HRD
import Vtm.Encoder.MergeData
import Vtm.Encoder.NALwrite
import Vtm.Encoder.PPS
import Vtm.Encoder.Palette
import Vtm.Encoder.PicHeader
import Vtm.Encoder.PredictionUnit
import Vtm.Encoder.RefPicListStruct
import Vtm.Encoder.ScalingList
import Vtm.Encoder.Symbols
import Vtm.Encoder.VLCWriter
import Vtm.Encoder.WeightPred
import Vtm.LostPics.Anchor
import Vtm.LostPics.BufferCalls
import Vtm.LostPics.InUse
import Vtm.LostPics.Insert
import Vtm.LostPics.RandomAccess
import Vtm.LostPics.Repair
import Vtm.Merge.AffineRange
import Vtm.Merge.EarlyStop
import Vtm.Merge.InterCandidates
import Vtm.Merge.MotionHistory
import Vtm.Merge.TemporalRange
import Vtm.Output.Advance
import Vtm.Output.BufferInv
import Vtm.Output.Conformance
import Vtm.Output.PictureBuffer
import Vtm.Output.Run
import Vtm.Output.Step
import Vtm.Output.Stream
import Vtm.Output.WriteOutput
import Vtm.Palette.Predictor
import Vtm.Parcat.FilterSegment
import Vtm.Parcat.PocOnly
import Vtm.Parcat.PocPatch
import Vtm.Parcat.Segment
import Vtm.Parcat.SlicePoc
import Vtm.Partition.Nesting
import Vtm.Partition.Partitioner
import Vtm.Partition.SplitSeries
import Vtm.Partition.TransformTiles
import Vtm.Partition.Visits
import Vtm.Player.Delivery
import Vtm.Player.Frames
import Vtm.Player.Packet
import Vtm.Player.Reassembly
import Vtm.Player.Session
import Vtm.Player.SessionSafety
import Vtm.Player.Stream
import Vtm.Quant.DepQuant
import Vtm.Quant.Dequant
import Vtm.Quant.HiddenSigns
import Vtm.Quant.Levels
import Vtm.Quant.LfnstSupport
import Vtm.Quant.ScalingInForce
import Vtm.Quant.ScalingMatrices
import Vtm.Quant.ScanPositions
import Vtm.Quant.SignHiding
import Vtm.Quant.TransformSkip
import Vtm.Quant.Trellis
import Vtm.Reshape.Construct
import Vtm.Reshape.LumaMapping
import Vtm.Reshape.MappingTables
import Vtm.Reshape.ParsedModel
import Vtm.RoundTrip.APS
import Vtm.RoundTrip.AnnexB
import Vtm.RoundTrip.BitCount
import Vtm.RoundTrip.BitStream
import Vtm.RoundTrip.Cabac
import Vtm.RoundTrip.CabacZeroWords
import Vtm.RoundTrip.EntryPoint
import Vtm.RoundTrip.ExpGolomb
import Vtm.RoundTrip.HRD
import Vtm.RoundTrip.MergeData
import Vtm.RoundTrip.MotionVectors
import Vtm.RoundTrip.Mvd
import Vtm.RoundTrip.NAL
import Vtm.RoundTrip.PPS
import Vtm.RoundTrip.Palette
import Vtm.RoundTrip.PicHeader
import Vtm.RoundTrip.PicHeaderLists
import Vtm.RoundTrip.PicHeaderParts
import Vtm.RoundTrip.PicHeaderTools
import Vtm.RoundTrip.PicOrderCnt
import Vtm.RoundTrip.PredictionUnit
import Vtm.RoundTrip.RefPicListStruct
import Vtm.RoundTrip.RemAbs
import Vtm.RoundTrip.SaoAlf
import Vtm.RoundTrip.ScalingList
import Vtm.RoundTrip.Symbols
import Vtm.RoundTrip.VLC
import Vtm.RoundTrip.WeightPred
import Vtm.Sei.PrefixQueue
import Vtm.Slice.BrickScan
import Vtm.Slice.ExplicitRefPicLists
import Vtm.Slice.MissingRefPics
import Vtm.Slice.RectSlices
import Vtm.Slice.RefPicAvailability
import Vtm.Slice.RefPicList
import Vtm.Slice.RefPicMarking
import Vtm.Slice.RefPicResolution
import Vtm.Slice.SliceLsbs
import Vtm.Slice.SubstreamIndex
import Vtm.Slice.SubstreamMap
import Vtm.Slice.Substreams
import Vtm.Std.Assign
import Vtm.Std.Bits
import Vtm.Std.Bytes
import Vtm.Std.CheckedArray
import Vtm.Std.Codec
import Vtm.Std.Cover
import Vtm.Std.Enumerate
import Vtm.Std.Fields
import Vtm.Std.Fill
import Vtm.Std.Fuel
import Vtm.Std.Guards
import Vtm.Std.Int32
import Vtm.Std.IntTable
import Vtm.Std.Interval
import Vtm.Std.Listing
import Vtm.Std.Pieces
import Vtm.Std.Places
import Vtm.Std.Recency
import Vtm.Std.Rounding
import Vtm.Std.Settles
import Vtm.Std.SortBy
import Vtm.Std.Tiling
