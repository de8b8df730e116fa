import WhaleShark.Foundations.Runs
import WhaleShark.Foundations.Blocks
import WhaleShark.Foundations.MarkedPieces
import WhaleShark.Foundations.Rescan
import WhaleShark.Foundations.TerminatedLines
import WhaleShark.Gateway.Common
import WhaleShark.Gateway.CLibrary
import WhaleShark.Gateway.PlcFrame
import WhaleShark.Gateway.PlcRuns
import WhaleShark.Gateway.PlcCycle
import WhaleShark.Gateway.WifiTransmit
import WhaleShark.Gateway.WifiRuns
import WhaleShark.Gateway.MessageQueue
import WhaleShark.Gateway.NetworkManager
import WhaleShark.Gateway.HandOver
import WhaleShark.Gateway.Recovery
import WhaleShark.Server.ManageClient
import WhaleShark.Server.Segments
import WhaleShark.EndToEnd.Acknowledgement
import WhaleShark.EndToEnd.SensorValue
import WhaleShark.Gateway.Failures
import WhaleShark.Gateway.Prompts
import WhaleShark.Foundations.Lines
import WhaleShark.Gateway.Configuration
import WhaleShark.Gateway.ConsoleParser
import WhaleShark.Gateway.ConsoleRuns
import WhaleShark.Gateway.FlashCrash
import WhaleShark.Server.Agent
import WhaleShark.Server.DayKeys
import WhaleShark.Server.Fanout
import WhaleShark.Server.SignalHandlers
import WhaleShark.Foundations.Escapes
import WhaleShark.Gateway.ApCommand
import WhaleShark.Gateway.LocalInfo
import WhaleShark.Gateway.PlcRecognition
import WhaleShark.Gateway.StaleBytes
import WhaleShark.Gateway.StartUp
import WhaleShark.Gateway.TcpCommand
import WhaleShark.Gateway.WifiFormat
import WhaleShark.Server.Layouts
import WhaleShark.Server.Snapshots
import WhaleShark.Monitor.Polling
import WhaleShark.EndToEnd.MonitorPackets
import WhaleShark.Foundations.Crc
import WhaleShark.Foundations.ReadLoops
import WhaleShark.Gateway.Base16
import WhaleShark.Gateway.Crc16
import WhaleShark.Gateway.FindValue
import WhaleShark.Gateway.PlcSensors
import WhaleShark.Gateway.ReadBuffers
import WhaleShark.Gateway.WifiTxData
import WhaleShark.Kernel.PoolRefinement
import WhaleShark.Kernel.QueueRuns
import WhaleShark.Kernel.SerialRx
import WhaleShark.Kernel.EventRuns
import WhaleShark.Kernel.RingBuffer
import WhaleShark.Gateway.ConsolePath
import WhaleShark.Kernel.TimerRuns
import WhaleShark.EndToEnd.Influx
import WhaleShark.Foundations.ByteMemory
import WhaleShark.Kernel.SmallMem
import WhaleShark.Kernel.HeapBlocks
import WhaleShark.Kernel.HeapRuns
